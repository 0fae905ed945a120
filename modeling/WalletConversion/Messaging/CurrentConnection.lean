import WalletConversion.Messaging.Connection

/-!
# The current connection

Whatever happens between two `await`s, the object has at most one connection to work with: the one
in its fields, or the one that an attempt is setting up. `Held` says so, and says who closes the
others. `held_of_step` shows that every step keeps it.

**Why a pair.** The fields `connection` and `channel` are set and cleared together, and an attempt
keeps what it has opened in local variables until both are there. So a live link belongs to the
fields or to the attempt, never to both, and an open connection that belongs to neither is one that
somebody is about to close: the attempt that has failed, or the shutdown. The events of the broker
may close any connection at any time; they only take away.
-/

namespace WalletConversion.RabbitMqConnection

/-! ### Which connection an attempt is at work on -/

namespace Attempt

/-- Nothing is under way. -/
def rests : Attempt → Bool
  | .idle | .settled _ => true
  | .connecting _ | .settingUp _ _ _ _ | .restoring _ _ _ _ | .closingChannel _ _ _
  | .closingConnection _ _ _ | .delaying _ => false

/-- The connection that is being set up. -/
def builds : Attempt → Option ℕ
  | .settingUp _ i _ _ => some i
  | .idle | .settled _ | .connecting _ | .restoring _ _ _ _ | .closingChannel _ _ _
  | .closingConnection _ _ _ | .delaying _ => none

/-- The connection on which the consumers are restored. -/
def restores : Attempt → Option ℕ
  | .restoring _ i _ _ => some i
  | .idle | .settled _ | .connecting _ | .settingUp _ _ _ _ | .closingChannel _ _ _
  | .closingConnection _ _ _ | .delaying _ => none

/-- The connection that is about to be closed. -/
def leaves : Attempt → Option ℕ
  | .closingChannel _ i _ => some i
  | .idle | .settled _ | .connecting _ | .settingUp _ _ _ _ | .restoring _ _ _ _
  | .closingConnection _ _ _ | .delaying _ => none

theorem builds_eq_none_of_rests {a : Attempt} (h : a.rests = true) : a.builds = none := by
  cases a <;> simp_all [rests, builds]

theorem builds_eq_none_of_restores {a : Attempt} {i : ℕ} (h : a.restores = some i) :
    a.builds = none := by
  cases a <;> simp_all [restores, builds]

end Attempt

/-- The connection that `onModuleDestroy` is about to close. -/
def Destroy.leaves : Destroy → Option ℕ
  | .closingChannel connection _ => connection
  | .notCalled | .closingConnection _ | .resolved => none

open Link in
/-- Who holds which connection. -/
structure Holds (connection channel : Option ℕ) (attempt : Attempt) (destroy : Destroy)
    (links : List Link) : Prop where
  same : connection = channel
  phase : ∀ i, channel = some i → attempt.rests = true ∨ attempt.restores = some i
  bounded : ∀ i, channel = some i ∨ attempt.builds = some i ∨ destroy.leaves = some i →
    i < links.length
  live : ∀ i, LiveAt links i → channel = some i ∨ attempt.builds = some i
  opened : ∀ i, connectionAt links i = some .opened → channel = some i ∨
    attempt.builds = some i ∨ attempt.leaves = some i ∨ destroy.leaves = some i
  closing : ∀ i, connectionAt links i = some .closing →
    channel ≠ some i ∧ attempt.builds ≠ some i
  left : ∀ i, destroy.leaves = some i → channel ≠ some i ∧ attempt.builds ≠ some i

/-- An attempt without a connection may end, and go on while there is no current connection. -/
theorem Holds.setAttempt {connection channel : Option ℕ} {a b : Attempt} {destroy : Destroy}
    {links : List Link} (h : Holds connection channel a destroy links) (hbuilds : a.builds = none)
    (hleaves : a.leaves = none) (hbuilds' : b.builds = none)
    (hphase : ∀ i, channel = some i → b.rests = true ∨ b.restores = some i) :
    Holds connection channel b destroy links where
  same := h.same
  phase := hphase
  bounded i hi := h.bounded i (by simpa [hbuilds, hbuilds'] using hi)
  live i hi := by simpa [hbuilds, hbuilds'] using h.live i hi
  opened i hi := by
    have hheld := h.opened i hi
    rw [hbuilds, hleaves] at hheld
    simp only [reduceCtorEq, false_or] at hheld
    exact hheld.imp_right fun hdestroy ↦ Or.inr (Or.inr hdestroy)
  closing i hi := ⟨(h.closing i hi).1, by simp [hbuilds']⟩
  left i hi := ⟨(h.left i hi).1, by simp [hbuilds']⟩

namespace State

/-- The invariant of the connection, for the fields of a state. -/
abbrev Held (s : State) : Prop := Holds s.connection s.channel s.attempt s.destroy s.links

variable {s s' : State} {config : Config}

/-- Nobody holds a connection at the start. -/
theorem held_initial : initial.Held := by
  constructor <;> simp [initial, Attempt.builds, Attempt.leaves, Destroy.leaves, Link.LiveAt,
    Link.connectionAt]

/-- Telling the waiting consumers changes no connection. -/
theorem Held.settle (h : s.Held) {resolved : Bool} (hbuilds : s.attempt.builds = none)
    (hleaves : s.attempt.leaves = none) : (s.settle resolved).Held :=
  h.setAttempt hbuilds hleaves rfl fun _ _ ↦ Or.inl rfl

/-- An attempt begins without a connection. -/
theorem Held.tryConnect (h : s.Held) {attempt : ℕ} (hbuilds : s.attempt.builds = none)
    (hleaves : s.attempt.leaves = none) (hchannel : s.channel = none) :
    (s.tryConnect config attempt).Held := by
  unfold State.tryConnect
  split
  · exact h.settle hbuilds hleaves
  · exact h.setAttempt hbuilds hleaves rfl fun i hi ↦ by simp [hchannel] at hi

/-- An attempt that failed has given its connection up. -/
theorem Held.attemptFailed (h : s.Held) {attempt : ℕ} (hbuilds : s.attempt.builds = none)
    (hleaves : s.attempt.leaves = none) (hchannel : s.channel = none) :
    (s.attemptFailed config attempt).Held := by
  unfold State.attemptFailed
  split
  · exact h.setAttempt hbuilds hleaves rfl fun i hi ↦ by simp [hchannel] at hi
  · exact h.settle hbuilds hleaves

/-- The retries begin only when no attempt is under way. -/
theorem Held.connectWithRetry (h : s.Held) : (s.connectWithRetry config).Held := by
  unfold State.connectWithRetry
  split
  · rename_i hidle
    exact h.tryConnect (by rw [hidle.2]; rfl) (by rw [hidle.2]; rfl) hidle.1
  · exact h

/-- There is no current connection while an attempt is neither at rest nor restoring. -/
theorem Held.channel_eq_none (h : s.Held) (hrests : s.attempt.rests = false)
    (hrestores : s.attempt.restores = none) : s.channel = none := by
  refine Option.eq_none_iff_forall_ne_some.2 fun i hi ↦ ?_
  rcases h.phase i hi with h' | h'
  · simp [hrests] at h'
  · simp [hrestores] at h'

/-- Nothing is set up while there is a current connection. -/
theorem Held.builds_eq_none (h : s.Held) {i : ℕ} (hi : s.channel = some i) :
    s.attempt.builds = none :=
  (h.phase i hi).elim Attempt.builds_eq_none_of_rests Attempt.builds_eq_none_of_restores

variable {links : List Link} {i : ℕ}

/-- Consumers are restored on the current connection. -/
theorem Held.eq_of_restores (h : s.Held) {j : ℕ} (hrests : s.attempt.rests = false)
    (hrestores : s.attempt.restores = some i) (hj : s.channel = some j) : j = i := by
  rcases h.phase j hj with h' | h'
  · simp [hrests] at h'
  · exact Option.some.inj (h'.symm.trans hrestores)

/-- Connections may be taken out of service. -/
theorem Held.relink (h : s.Held) (hlive : ∀ j, Link.LiveAt links j → s.Live j)
    (hconnection : ∀ j, Link.connectionAt links j = s.connectionStatus j ∨
      Link.connectionAt links j = some .closed) (hlength : s.links.length ≤ links.length) :
    Holds s.connection s.channel s.attempt s.destroy links where
  same := h.same
  phase := h.phase
  bounded j hj := (h.bounded j hj).trans_le hlength
  live j hj := h.live j (hlive j hj)
  opened j hj := h.opened j (by rcases hconnection j with h' | h' <;> simp_all)
  closing j hj := h.closing j (by rcases hconnection j with h' | h' <;> simp_all)
  left := h.left

/-- A subscription changes no connection. -/
theorem Held.accept (h : s.Held) (queue : String) (i : ℕ) :
    Holds s.connection s.channel s.attempt s.destroy (s.links.modify i (.accept queue)) :=
  h.relink (fun _ hj ↦ Link.liveAt_accept.1 hj)
    (fun _ ↦ Or.inl (Link.connectionAt_modify_of_eq fun _ ↦ rfl)) (List.length_modify ..).ge

/-- The current connection may be given up. -/
theorem Held.drop (h : s.Held) (hi : s.channel = some i)
    (hlive : ∀ j, Link.LiveAt links j → s.Live j ∧ j ≠ i)
    (hconnection : ∀ j, j ≠ i → Link.connectionAt links j = s.connectionStatus j)
    (hopened : Link.connectionAt links i ≠ some .opened)
    (hlength : s.links.length ≤ links.length) :
    Holds none none s.attempt s.destroy links where
  same := rfl
  phase j hj := by cases hj
  bounded j hj := (h.bounded j (hj.imp_left fun h' ↦ by cases h')).trans_le hlength
  live j hj := by
    obtain ⟨hbefore, hne⟩ := hlive j hj
    rcases h.live j hbefore with h' | h'
    · exact absurd (Option.some.inj (h'.symm.trans hi)) hne
    · exact Or.inr h'
  opened j hj := by
    rcases eq_or_ne j i with rfl | hne
    · exact absurd hj hopened
    rw [hconnection j hne] at hj
    rcases h.opened j hj with h' | h'
    · exact absurd (Option.some.inj (h'.symm.trans hi)) hne
    · exact Or.inr h'
  closing j _ := ⟨by simp, by simp [h.builds_eq_none hi]⟩
  left j hj := ⟨by simp, (h.left j hj).2⟩

/-- After a failure the connection of the attempt is closed. -/
theorem Held.abandon (h : s.Held) {attempt : ℕ} {waits : Bool}
    (hchannel : ∀ j, s.channel = some j → j = i) (hbuilds : ∀ j, s.attempt.builds = some j → j = i)
    (hleaves : s.attempt.leaves = none) :
    Holds none none (.closingChannel attempt i waits) s.destroy
      (s.links.modify i .closeChannel) where
  same := rfl
  phase j hj := by cases hj
  bounded j hj := by
    rw [List.length_modify]
    rcases hj with h' | h' | h'
    · cases h'
    · cases h'
    · exact h.bounded j (Or.inr (Or.inr h'))
  live j hj := by
    obtain ⟨hbefore, hne⟩ := (Link.liveAt_modify_of_stops Link.stops_closeChannel).1 hj
    exact absurd ((h.live j hbefore).elim (hchannel j) (hbuilds j)) hne
  opened j hj := by
    rw [Link.connectionAt_modify_of_eq Link.connection_closeChannel] at hj
    rcases h.opened j hj with h' | h' | h' | h'
    · exact Or.inr (Or.inr (Or.inl (by rw [hchannel j h']; rfl)))
    · exact Or.inr (Or.inr (Or.inl (by rw [hbuilds j h']; rfl)))
    · simp [hleaves] at h'
    · exact Or.inr (Or.inr (Or.inr h'))
  closing j _ := ⟨by simp, by simp [Attempt.builds]⟩
  left j _ := ⟨by simp, by simp [Attempt.builds]⟩

/-- The subscriptions are restored on the connection that was opened. -/
theorem held_restoreFrom {attempt position : ℕ}
    (h : Holds s.connection s.channel .idle s.destroy s.links)
    (hchannel : ∀ j, s.channel = some j → j = i) : (s.restoreFrom attempt i position).Held := by
  have hrestoring : ∀ starting, Holds s.connection s.channel
      (.restoring attempt i position starting) s.destroy s.links := fun starting ↦
    h.setAttempt rfl rfl rfl fun j hj ↦ Or.inr (by rw [hchannel j hj]; rfl)
  unfold State.restoreFrom
  split
  · exact h.setAttempt rfl rfl rfl fun _ _ ↦ Or.inl rfl
  · split
    · exact hrestoring _
    · split <;> exact hrestoring _

/-- The connection that was set up becomes the current one. -/
theorem Held.publish (h : s.Held) {attempt : ℕ} (hbuilds : s.attempt.builds = some i)
    (hleaves : s.attempt.leaves = none) (hchannel : s.channel = none) :
    (s.publish attempt i).Held := by
  have hheld : Holds (some i) (some i) .idle s.destroy s.links :=
    { same := rfl
      phase := fun _ _ ↦ Or.inl rfl
      bounded := fun j hj ↦ by
        rcases hj with h' | h' | h'
        · exact h.bounded j (Or.inr (Or.inl (hbuilds.trans h')))
        · cases h'
        · exact h.bounded j (Or.inr (Or.inr h'))
      live := fun j hj ↦ by
        rcases h.live j hj with h' | h'
        · simp [hchannel] at h'
        · exact Or.inl (hbuilds.symm.trans h')
      opened := fun j hj ↦ by
        rcases h.opened j hj with h' | h' | h' | h'
        · simp [hchannel] at h'
        · exact Or.inl (hbuilds.symm.trans h')
        · simp [hleaves] at h'
        · exact Or.inr (Or.inr (Or.inr h'))
      closing := fun j hj ↦
        ⟨fun h' ↦ (h.closing j hj).2 (hbuilds.trans h'), by simp [Attempt.builds]⟩
      left := fun j hj ↦ ⟨fun h' ↦ (h.left j hj).2 (hbuilds.trans h'), by simp [Attempt.builds]⟩ }
  exact held_restoreFrom hheld fun j hj ↦ (Option.some.inj hj).symm

/-- **A step of an attempt keeps who holds which connection.** -/
theorem Held.continueAttempt (h : s.Held) (hs : s.continueAttempt config = some s') : s'.Held := by
  unfold State.continueAttempt at hs
  split at hs
  · rename_i attempt i call hattempt
    have hbuilds : s.attempt.builds = some i := by rw [hattempt]; rfl
    have hleaves : s.attempt.leaves = none := by rw [hattempt]; rfl
    split at hs
    · rename_i next _
      cases hs
      have hsame : Holds s.connection s.channel s.attempt s.destroy s.links := h
      rw [hattempt] at hsame
      exact ⟨h.same, hsame.phase, hsame.bounded, hsame.live, hsame.opened,
        hsame.closing, hsame.left⟩
    · cases hs
      exact h.publish hbuilds hleaves
        (h.channel_eq_none (by rw [hattempt]; rfl) (by rw [hattempt]; rfl))
  · rename_i attempt i call hattempt
    cases hs
    have hchannel : s.channel = none :=
      h.channel_eq_none (by rw [hattempt]; rfl) (by rw [hattempt]; rfl)
    have hconnection : s.connection = none := h.same.trans hchannel
    show Holds s.connection s.channel _ _ _
    rw [hconnection, hchannel]
    exact h.abandon (fun j hj ↦ by simp [hchannel] at hj)
      (fun j hj ↦ by rw [hattempt] at hj; exact (Option.some.inj hj).symm) (by rw [hattempt]; rfl)
  · rename_i attempt i position hattempt
    split at hs
    · cases hs
      exact h.setAttempt (by rw [hattempt]; rfl) (by rw [hattempt]; rfl) rfl fun j hj ↦
        (h.phase j hj).imp (fun h' ↦ by rw [hattempt] at h'; cases h')
          fun h' ↦ by rw [hattempt] at h'; exact h'
    · cases hs
  · rename_i attempt i position hattempt
    cases hs
    refine held_restoreFrom (h.setAttempt (by rw [hattempt]; rfl) (by rw [hattempt]; rfl) rfl
      fun _ _ ↦ Or.inl rfl) fun j hj ↦ ?_
    exact h.eq_of_restores (by rw [hattempt]; rfl) (by rw [hattempt]; rfl) hj
  · rename_i attempt i position hattempt
    cases hs
    exact h.abandon (fun j hj ↦ h.eq_of_restores (by rw [hattempt]; rfl) (by rw [hattempt]; rfl) hj)
      (fun j hj ↦ by rw [hattempt] at hj; cases hj) (by rw [hattempt]; rfl)
  · rename_i attempt i waits hattempt
    split at hs
    · cases hs
    · cases hs
      have hchannel : s.channel = none :=
        h.channel_eq_none (by rw [hattempt]; rfl) (by rw [hattempt]; rfl)
      have hnone : ∀ j, s.channel ≠ some j := fun j hj ↦ by simp [hchannel] at hj
      exact
        { same := h.same
          phase := fun j hj ↦ absurd hj (hnone j)
          bounded := fun j hj ↦ by
            rw [onLink, List.length_modify]
            rcases hj with h' | h' | h'
            · exact absurd h' (hnone j)
            · cases h'
            · exact h.bounded j (Or.inr (Or.inr h'))
          live := fun j hj ↦ by
            have hbefore := (Link.liveAt_modify_of_stops Link.stops_closeConnection).1 hj
            rcases h.live j hbefore.1 with h' | h'
            · exact Or.inl h'
            · rw [hattempt] at h'
              cases h'
          opened := fun j hj ↦ by
            replace hj := hj
            rw [onLink, Link.connectionAt_closeConnection] at hj
            split at hj
            · cases hj
            · rename_i hne
              rcases h.opened j hj with h' | h' | h' | h'
              · exact Or.inl h'
              · rw [hattempt] at h'
                cases h'
              · rw [hattempt] at h'
                exact absurd ⟨Option.some.inj h', hj⟩ hne
              · exact Or.inr (Or.inr (Or.inr h'))
          closing := fun j _ ↦ ⟨hnone j, by simp [Attempt.builds]⟩
          left := fun j _ ↦ ⟨hnone j, by simp [Attempt.builds]⟩ }
  · rename_i attempt i waits hattempt
    split at hs
    · cases hs
    · cases hs
      exact h.attemptFailed (by rw [hattempt]; rfl) (by rw [hattempt]; rfl)
        (h.channel_eq_none (by rw [hattempt]; rfl) (by rw [hattempt]; rfl))
  · rename_i resolved hattempt
    cases hs
    exact h.setAttempt (by rw [hattempt]; rfl) (by rw [hattempt]; rfl) rfl fun _ _ ↦ Or.inl rfl
  all_goals cases hs

/-- A call of `consume` changes no connection. -/
theorem Held.consume (h : s.Held) {queue : String} : (s.consume config queue).Held := by
  unfold State.consume
  split
  · exact h
  · split
    · exact h
    · split
      · exact h
      · exact h.connectWithRetry

/-- Nor does a step of such a call. -/
theorem Held.continueCall (h : s.Held) {position : ℕ} (hs : s.continueCall position = some s') :
    s'.Held := by
  unfold State.continueCall at hs
  split at hs
  · cases hs
  · split at hs
    · split at hs <;> cases hs <;> exact h
    · split at hs
      · cases hs
        exact h
      · split at hs <;> cases hs <;> exact h
    · cases hs
      exact h
    all_goals cases hs

@[simp] theorem scheduleReconnect_held : s.scheduleReconnect.Held ↔ s.Held := by
  unfold scheduleReconnect
  split <;> exact Iff.rfl

/-- Rejecting what waits on a connection does not move the attempt. -/
theorem rejectPending_attempt : (s.rejectPending i).attempt.rests = s.attempt.rests ∧
    (s.rejectPending i).attempt.builds = s.attempt.builds ∧
    (s.rejectPending i).attempt.restores = s.attempt.restores ∧
    (s.rejectPending i).attempt.leaves = s.attempt.leaves := by
  simp only [rejectPending]
  split <;> rename_i h' <;> try rw [h'] <;> exact ⟨rfl, rfl, rfl, rfl⟩
  exact ⟨rfl, rfl, rfl, rfl⟩

/-- Nor does refusing what waits for a connection. -/
theorem held_rejectPending (h : s.Held) : (s.rejectPending i).Held := by
  obtain ⟨hrests, hbuilds, hrestores, hleaves⟩ := rejectPending_attempt (s := s) (i := i)
  exact
    { same := h.same
      phase := fun j hj ↦ by rw [hrests, hrestores]; exact h.phase j hj
      bounded := fun j hj ↦ h.bounded j (by rwa [hbuilds] at hj)
      live := fun j hj ↦ by rw [hbuilds]; exact h.live j hj
      opened := fun j hj ↦ by rw [hbuilds, hleaves]; exact h.opened j hj
      closing := fun j hj ↦ by rw [hbuilds]; exact h.closing j hj
      left := fun j hj ↦ by rw [hbuilds]; exact h.left j hj }

/-- Who loses the channel lets its connection go. -/
theorem Held.channelClosed (h : s.Held) : (s.channelClosed i).Held := by
  have hclosed : (s.onLink i .channelClosed).Held :=
    h.relink (fun j hj ↦ ((Link.liveAt_modify_of_stops Link.stops_channelClosed).1 hj).1)
      (fun j ↦ Or.inl (Link.connectionAt_modify_of_eq fun _ ↦ rfl)) (List.length_modify ..).ge
  have hrejected := held_rejectPending (i := i) hclosed
  unfold State.channelClosed
  simp only
  split
  · rename_i hi
    rw [scheduleReconnect_held]
    refine hrejected.drop hi (fun j hj ↦
      (Link.liveAt_modify_of_stops Link.stops_closeConnection).1 hj) (fun j hne ↦ ?_) ?_
      (List.length_modify ..).ge
    · exact Link.connectionAt_closeConnection.trans (if_neg fun h' ↦ hne h'.1.symm)
    · show Link.connectionAt (List.modify _ i Link.closeConnection) i ≠ _
      rw [Link.connectionAt_closeConnection]
      split
      · simp
      · rename_i hne
        exact fun h' ↦ hne ⟨rfl, h'⟩
  · exact hrejected

/-- And so does who loses the connection. -/
theorem Held.connectionClosed (h : s.Held) : (s.connectionClosed i).Held := by
  have hstatus : ∀ j, (s.onLink i .connectionClosed).connectionStatus j =
      if i = j then (s.connectionStatus j).map fun _ ↦ .closed else s.connectionStatus j := fun j ↦
    Link.connectionAt_connectionClosed
  have hclosed : (s.onLink i .connectionClosed).Held := by
    refine h.relink (fun j hj ↦
      ((Link.liveAt_modify_of_stops Link.stops_connectionClosed).1 hj).1) (fun j ↦ ?_)
      (List.length_modify ..).ge
    show (s.onLink i .connectionClosed).connectionStatus j = _ ∨
      (s.onLink i .connectionClosed).connectionStatus j = _
    rw [hstatus]
    split
    · cases s.connectionStatus j with
      | none => exact Or.inl rfl
      | some status => exact Or.inr rfl
    · exact Or.inl rfl
  have hrejected := held_rejectPending (i := i) hclosed
  unfold State.connectionClosed
  simp only
  split
  · rename_i hi
    rw [scheduleReconnect_held]
    have hchannel : s.channel = some i := hi.elim id fun h' ↦ h.same.symm.trans h'
    refine hrejected.drop hchannel (fun j hj ↦ ⟨hj, ?_⟩) (fun j _ ↦ rfl) ?_ le_rfl
    · exact ((Link.liveAt_modify_of_stops Link.stops_connectionClosed).1 hj).2
    · show (s.onLink i .connectionClosed).connectionStatus i ≠ _
      rw [hstatus, if_pos rfl]
      cases s.connectionStatus i <;> simp
  · exact hrejected

/-- The shutdown takes over the connection that was held. -/
theorem Held.onModuleDestroy (h : s.Held) (hdestroy : s.destroy = .notCalled) :
    s.onModuleDestroy.Held := by
  have hconnection : ∀ j, Link.connectionAt s.onModuleDestroy.links j = s.connectionStatus j := by
    intro j
    cases hchannel : s.channel with
    | none => simp [State.onModuleDestroy, hchannel]
    | some i =>
      simpa [State.onModuleDestroy, hchannel] using
        Link.connectionAt_modify_of_eq Link.connection_closeChannel
  have hlive : ∀ j, Link.LiveAt s.onModuleDestroy.links j → s.Live j ∧ s.channel ≠ some j := by
    intro j hj
    cases hchannel : s.channel with
    | none => exact ⟨by simpa [State.onModuleDestroy, hchannel] using hj, by simp⟩
    | some i =>
      have hstopped := (Link.liveAt_modify_of_stops (i := i) Link.stops_closeChannel).1
        (by simpa [State.onModuleDestroy, hchannel] using hj)
      exact ⟨hstopped.1, fun h' ↦ hstopped.2 (Option.some.inj h').symm⟩
  have hlength : s.onModuleDestroy.links.length = s.links.length := by
    cases hchannel : s.channel <;> simp [State.onModuleDestroy, hchannel]
  have hcurrent : ∀ j, s.connection = some j → s.channel = some j := fun j hj ↦ h.same.symm.trans hj
  exact
    { same := rfl
      phase := fun j hj ↦ by cases hj
      bounded := fun j hj ↦ by
        rw [hlength]
        rcases hj with h' | h' | h'
        · cases h'
        · exact h.bounded j (Or.inr (Or.inl h'))
        · exact h.bounded j (Or.inl (hcurrent j h'))
      live := fun j hj ↦ by
        obtain ⟨hbefore, hne⟩ := hlive j hj
        exact Or.inr ((h.live j hbefore).resolve_left hne)
      opened := fun j hj ↦ by
        rw [hconnection] at hj
        rcases h.opened j hj with h' | h' | h' | h'
        · exact Or.inr (Or.inr (Or.inr (h.same.trans h')))
        · exact Or.inr (Or.inl h')
        · exact Or.inr (Or.inr (Or.inl h'))
        · rw [hdestroy] at h'
          cases h'
      closing := fun j hj ↦
        ⟨Option.some_ne_none j |>.symm, (h.closing j (by rwa [hconnection] at hj)).2⟩
      left := fun j hj ↦ ⟨Option.some_ne_none j |>.symm, fun h' ↦ by
        rw [State.onModuleDestroy] at h'
        exact absurd (h'.symm.trans (h.builds_eq_none (hcurrent j hj))) (by simp)⟩ }

/-- **A step of the shutdown keeps who holds which connection.** -/
theorem Held.continueDestroy (h : s.Held) (hs : s.continueDestroy = some s') : s'.Held := by
  unfold State.continueDestroy at hs
  split at hs
  · rename_i connection waits hdestroy
    split at hs
    · cases hs
    cases hs
    cases connection with
    | none =>
      have hheld : Holds s.connection s.channel s.attempt s.destroy s.links := h
      rw [hdestroy] at hheld
      exact ⟨h.same, hheld.phase, hheld.bounded, hheld.live, hheld.opened,
        hheld.closing, hheld.left⟩
    | some i =>
      have hleft := h.left i (by rw [hdestroy]; rfl)
      exact
        { same := h.same
          phase := h.phase
          bounded := fun j hj ↦ by
            simp only [Option.elim_some, List.length_modify]
            rcases hj with h' | h' | h'
            · exact h.bounded j (Or.inl h')
            · exact h.bounded j (Or.inr (Or.inl h'))
            · cases h'
          live := fun j hj ↦
            h.live j ((Link.liveAt_modify_of_stops Link.stops_closeConnection).1 hj).1
          opened := fun j hj ↦ by
            simp only [Option.elim_some, Link.connectionAt_closeConnection] at hj
            split at hj
            · cases hj
            · rename_i hne
              rcases h.opened j hj with h' | h' | h' | h'
              · exact Or.inl h'
              · exact Or.inr (Or.inl h')
              · exact Or.inr (Or.inr (Or.inl h'))
              · rw [hdestroy] at h'
                exact absurd ⟨Option.some.inj h', hj⟩ hne
          closing := fun j hj ↦ by
            simp only [Option.elim_some, Link.connectionAt_closeConnection] at hj
            split at hj
            · rename_i hi
              rw [← hi.1]
              exact hleft
            · exact h.closing j hj
          left := fun j hj ↦ by cases hj }
  · rename_i waits hdestroy
    split at hs
    · cases hs
    cases hs
    have hheld : Holds s.connection s.channel s.attempt s.destroy s.links := h
    rw [hdestroy] at hheld
    exact ⟨h.same, hheld.phase, hheld.bounded, hheld.live, hheld.opened, hheld.closing, hheld.left⟩
  all_goals cases hs

/-- A connection that `amqp.connect` has opened belongs to the attempt. -/
theorem Held.connected (h : s.Held) {attempt : ℕ} (hattempt : s.attempt = .connecting attempt) :
    Holds s.connection s.channel (.settingUp attempt s.links.length .createConfirmChannel .pending)
      s.destroy (s.links ++ [.connected]) := by
  have hchannel : s.channel = none :=
    h.channel_eq_none (by rw [hattempt]; rfl) (by rw [hattempt]; rfl)
  have hnone : ∀ j, s.channel ≠ some j := fun j hj ↦ by simp [hchannel] at hj
  exact
    { same := h.same
      phase := fun j hj ↦ absurd hj (hnone j)
      bounded := fun j hj ↦ by
        rw [List.length_append, List.length_singleton]
        rcases hj with h' | h' | h'
        · exact absurd h' (hnone j)
        · cases h'
          exact Nat.lt_succ_self _
        · exact (h.bounded j (Or.inr (Or.inr h'))).trans (Nat.lt_succ_self _)
      live := fun j hj ↦ by
        rcases h.live j (Link.liveAt_append.1 hj) with h' | h'
        · exact Or.inl h'
        · rw [hattempt] at h'
          cases h'
      opened := fun j hj ↦ by
        rw [Link.connectionAt_append] at hj
        split at hj
        · rename_i hlast
          exact Or.inr (Or.inl (by rw [hlast]; rfl))
        · rcases h.opened j hj with h' | h' | h' | h'
          · exact Or.inl h'
          · rw [hattempt] at h'
            cases h'
          · rw [hattempt] at h'
            cases h'
          · exact Or.inr (Or.inr (Or.inr h'))
      closing := fun j hj ↦ ⟨hnone j, fun h' ↦ by
        rw [Link.connectionAt_append, if_pos (Option.some.inj h').symm] at hj
        cases hj⟩
      left := fun j hj ↦ ⟨hnone j, fun h' ↦
        (h.bounded j (Or.inr (Or.inr hj))).ne (Option.some.inj h').symm⟩ }

/-- **Every step keeps the connections in order.** -/
theorem held_of_step (h : s.Held) {event : Event} (hs : s.step config event = some s') :
    s'.Held := by
  cases event with
  | connect =>
    simp only [step] at hs
    split at hs <;> cases hs
    · exact h.connectWithRetry
    · exact h
  | consume queue =>
    cases hs
    exact h.consume
  | destroy =>
    simp only [step] at hs
    split at hs <;> cases hs
    exact h.onModuleDestroy ‹_›
  | connected =>
    simp only [step] at hs
    split at hs
    · split at hs <;> cases hs
      exact h.connected ‹_›
    all_goals cases hs
  | refused =>
    simp only [step] at hs
    split at hs
    · rename_i hattempt
      split at hs <;> cases hs
      exact h.attemptFailed (by rw [hattempt]; rfl) (by rw [hattempt]; rfl)
        (h.channel_eq_none (by rw [hattempt]; rfl) (by rw [hattempt]; rfl))
    all_goals cases hs
  | setUp resolved =>
    simp only [step] at hs
    split at hs
    · rename_i attempt i call hattempt
      have hsame : Holds s.connection s.channel s.attempt s.destroy s.links := h
      rw [hattempt] at hsame
      have hreply : ∀ reply, Holds s.connection s.channel (.settingUp attempt i call reply)
          s.destroy s.links := fun reply ↦
        ⟨h.same, hsame.phase, hsame.bounded, hsame.live, hsame.opened, hsame.closing, hsame.left⟩
      split at hs
      · split at hs
        · split at hs
          · split at hs <;> cases hs
            have hopened := hreply .resolved
            exact
              { same := h.same
                phase := hopened.phase
                bounded := fun j hj ↦ by
                  rw [onLink, List.length_modify]
                  exact hopened.bounded j hj
                live := fun j hj ↦ by
                  rcases eq_or_ne i j with rfl | hne
                  · exact Or.inr rfl
                  · obtain ⟨l, hl, hlive⟩ := Link.liveAt_modify.1 hj
                    rw [if_neg hne] at hlive
                    exact hopened.live j (Link.liveAt_iff.2 ⟨l, hl, hlive⟩)
                opened := fun j hj ↦ hopened.opened j
                  ((Link.connectionAt_modify_of_eq Link.connection_channelOpened).symm.trans hj)
                closing := fun j hj ↦ hopened.closing j
                  ((Link.connectionAt_modify_of_eq Link.connection_channelOpened).symm.trans hj)
                left := hopened.left }
          · split at hs <;> cases hs
            exact hreply _
        · cases hs
          exact hreply _
      · cases hs
    all_goals cases hs
  | delayed =>
    simp only [step] at hs
    split at hs
    · rename_i hattempt
      split at hs <;> cases hs
      exact h.tryConnect (by rw [hattempt]; rfl) (by rw [hattempt]; rfl)
        (h.channel_eq_none (by rw [hattempt]; rfl) (by rw [hattempt]; rfl))
    all_goals cases hs
  | reconnect =>
    simp only [step] at hs
    split at hs
    · have hheld : Held ({ s with reconnectTimer := false }.connectWithRetry config) :=
        Held.connectWithRetry (s := { s with reconnectTimer := false }) h
      split at hs <;> cases hs <;> exact hheld
    · cases hs
  | restored =>
    simp only [step] at hs
    split at hs
    · rename_i attempt i position hattempt
      split at hs
      · split at hs <;> cases hs
        exact (h.accept _ i).setAttempt (by rw [hattempt]; rfl)
          (by rw [hattempt]; rfl) rfl fun j hj ↦
          (h.phase j hj).imp (fun h' ↦ by rw [hattempt] at h'; cases h')
            fun h' ↦ by rw [hattempt] at h'; exact h'
      · cases hs
    all_goals cases hs
  | accepted position =>
    simp only [step] at hs
    split at hs
    · split at hs <;> cases hs
      exact h.accept _ _
    all_goals cases hs
  | channelClosed i =>
    simp only [step] at hs
    split at hs <;> cases hs
    exact h.channelClosed
  | connectionClosed i =>
    simp only [step] at hs
    split at hs <;> cases hs
    exact h.connectionClosed
  | continueAttempt => exact h.continueAttempt hs
  | continueCall position => exact h.continueCall hs
  | continueExhausted =>
    simp only [step] at hs
    split at hs <;> cases hs
    rw [scheduleReconnect_held]
    exact h
  | continueDestroy => exact h.continueDestroy hs

end State

end WalletConversion.RabbitMqConnection
