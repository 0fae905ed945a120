import WalletConversion.Messaging.CurrentConnection

/-!
# The registered consumers

A queue is recorded as active only after the broker has answered, and two places start consumers:
`consume` itself, and the loop of `connectOnce` over all the registered queues. `Tidy` and `Serving`
say how the subscriptions on a channel, the record of active queues and the calls under way belong
together. `sound_of_step` shows that every step keeps it, unless a call of `consume` registers a
queue on a connection where the loop is running.

**What the invariants leave open.** A queue that is registered need not be subscribed: its call may
be under way, or may have failed. What they exclude is that a queue is subscribed twice on one
channel, and that a subscription is neither recorded nor about to be.
-/

namespace WalletConversion.RabbitMqConnection

variable {consumers consumers' : List Consumer} {active active' : Finset String}
  {a b : Attempt} {links links' : List Link} {i : ℕ}

/-- A call of `consume` that is at work on connection `i`. -/
def Call.Serves (i : ℕ) (call : Call) : Prop :=
  call = .got i ∨ call = .consuming i ∨ call = .consumed i

/-- The loop has yet to reach the consumer of this position on connection `i`, or is at it. -/
def Attempt.Reaches (i position : ℕ) (a : Attempt) : Prop :=
  ∃ attempt position' starting, a = .restoring attempt i position' starting ∧
    (position' < position ∨ position' = position ∧ starting ≠ .returned)

/-- The connection that is set up and not yet published. -/
def Attempt.publishes : Attempt → Option ℕ
  | .settingUp _ i .prefetch .resolved => some i
  | _ => none

/-! ### What always holds -/

/-- The consumer that was registered at this position. -/
abbrev Registered (consumers : List Consumer) (position : ℕ) (c : Consumer) : Prop :=
  consumers[position]? = some c

/-- Every connection has one subscription for a queue at most, and nobody else starts consumers
while an attempt is at work on its connection. -/
structure Tidy (consumers : List Consumer) (a : Attempt) (links : List Link) : Prop where
  queues : ∀ p p' c c', Registered consumers p c → Registered consumers p' c' →
    c.queue = c'.queue → p = p'
  subscriptions : ∀ j, (Link.subscriptionsAt links j).Nodup
  fresh : ∀ j, a.builds = some j → Link.subscriptionsAt links j = []
  bounded : ∀ p c j, Registered consumers p c → c.call = .consuming j → j < links.length
  quiet : ∀ j, a.builds = some j ∨ a.restores = some j → ∀ p c, Registered consumers p c →
    c.call.ready = false ∧ c.call ≠ .consuming j

/-- The consumers of the current connection `i`. -/
structure Serving (i : ℕ) (consumers : List Consumer) (active : Finset String) (a : Attempt)
    (links : List Link) : Prop where
  /-- What is recorded as active has its subscription. -/
  recorded : ∀ queue ∈ active, queue ∈ Link.subscriptionsAt links i
  /-- A subscription is recorded, or is about to be recorded. -/
  known : ∀ queue ∈ Link.subscriptionsAt links i, queue ∈ active ∨
    (∃ p c, Registered consumers p c ∧ c.queue = queue ∧ c.call = .consumed i) ∨
    ∃ attempt p c, a = .restoring attempt i p (.consuming .resolved) ∧ Registered consumers p c ∧
      c.queue = queue
  got : ∀ p c j, Registered consumers p c → c.call = .got j → j = i
  consumed : ∀ p c j, Registered consumers p c → c.call = .consumed j →
    j = i ∧ c.queue ∈ Link.subscriptionsAt links i
  consuming : ∀ p c, Registered consumers p c → c.call = .consuming i →
    c.queue ∉ Link.subscriptionsAt links i
  pending : ∀ attempt p c, a = .restoring attempt i p (.consuming .pending) →
    Registered consumers p c → c.queue ∉ Link.subscriptionsAt links i
  resolved : ∀ attempt p c, a = .restoring attempt i p (.consuming .resolved) →
    Registered consumers p c → c.queue ∈ Link.subscriptionsAt links i
  /-- No consumer is left out. -/
  progress : Link.LiveAt links i → ∀ p c, Registered consumers p c →
    c.queue ∈ active ∨ c.call.Serves i ∨ a.Reaches i p

/-! ### Connections go, and attempts end -/

/-- Consumers stay in order when links change without their subscriptions. -/
theorem Tidy.relink (h : Tidy consumers a links)
    (hsubscriptions : ∀ j, Link.subscriptionsAt links' j = Link.subscriptionsAt links j)
    (hlength : links.length ≤ links'.length) : Tidy consumers a links' where
  queues := h.queues
  subscriptions j := by rw [hsubscriptions]; exact h.subscriptions j
  fresh j hj := by rw [hsubscriptions]; exact h.fresh j hj
  bounded p c j hp hc := (h.bounded p c j hp hc).trans_le hlength
  quiet := h.quiet

/-- A link is served as before when its subscriptions stay and it does not become live. -/
theorem Serving.relink (h : Serving i consumers active a links)
    (hsubscriptions : Link.subscriptionsAt links' i = Link.subscriptionsAt links i)
    (hlive : Link.LiveAt links' i → Link.LiveAt links i) :
    Serving i consumers active a links' where
  recorded := by rw [hsubscriptions]; exact h.recorded
  known := by rw [hsubscriptions]; exact h.known
  got := h.got
  consumed := by rw [hsubscriptions]; exact h.consumed
  consuming := by rw [hsubscriptions]; exact h.consuming
  pending := by rw [hsubscriptions]; exact h.pending
  resolved := by rw [hsubscriptions]; exact h.resolved
  progress hi := h.progress (hlive hi)

/-- Connections may be taken out of service. -/
theorem Tidy.stop (h : Tidy consumers a links) {f : Link → Link} (hf : Link.Stops f) (j : ℕ) :
    Tidy consumers a (links.modify j f) :=
  h.relink (fun _ ↦ Link.subscriptionsAt_modify_of_eq fun l ↦ (hf l).2) (List.length_modify ..).ge

/-- A link is served as before when links stop. -/
theorem Serving.stop (h : Serving i consumers active a links) {f : Link → Link}
    (hf : Link.Stops f) (j : ℕ) : Serving i consumers active a (links.modify j f) :=
  h.relink (Link.subscriptionsAt_modify_of_eq fun l ↦ (hf l).2)
    fun hi ↦ ((Link.liveAt_modify_of_stops hf).1 hi).1

/-- An attempt without a connection. -/
theorem Tidy.setAttempt (h : Tidy consumers a links) (hbuilds : b.builds = none)
    (hrestores : b.restores = none) : Tidy consumers b links where
  queues := h.queues
  subscriptions := h.subscriptions
  fresh j hj := by simp [hbuilds] at hj
  bounded := h.bounded
  quiet j hj := by simp [hbuilds, hrestores] at hj

/-- An attempt may go on with the same connection. -/
theorem Tidy.advance (h : Tidy consumers a links) (hbuilds : b.builds = a.builds)
    (hrestores : b.restores = a.restores) : Tidy consumers b links where
  queues := h.queues
  subscriptions := h.subscriptions
  fresh j hj := h.fresh j (hbuilds.symm.trans hj)
  bounded := h.bounded
  quiet j hj := h.quiet j (by rwa [hbuilds, hrestores] at hj)

/-- An attempt may go on: the loop over the consumers moves, or it ends. -/
theorem Serving.advance (h : Serving i consumers active a links)
    (ha : ∀ attempt p, a ≠ .restoring attempt i p (.consuming .resolved))
    (hb : ∀ attempt p, b ≠ .restoring attempt i p (.consuming .resolved))
    (hpending : ∀ attempt p c, b = .restoring attempt i p (.consuming .pending) →
      Registered consumers p c → c.queue ∉ Link.subscriptionsAt links i)
    (hprogress : Link.LiveAt links i → ∀ p c, Registered consumers p c → a.Reaches i p →
      c.queue ∈ active ∨ c.call.Serves i ∨ b.Reaches i p) :
    Serving i consumers active b links where
  recorded := h.recorded
  known queue hqueue := by
    refine (h.known queue hqueue).imp_right fun h' ↦ Or.inl (h'.resolve_right ?_)
    rintro ⟨attempt, p, c, hattempt, -⟩
    exact ha attempt p hattempt
  got := h.got
  consumed := h.consumed
  consuming := h.consuming
  pending := hpending
  resolved attempt p _ hattempt := absurd hattempt (hb attempt p)
  progress hi p c hp := by
    rcases h.progress hi p c hp with h' | h' | h'
    · exact Or.inl h'
    · exact Or.inr (Or.inl h')
    · exact hprogress hi p c hp h'

/-- A link is served as before when the attempt that does not restore it changes. -/
theorem Serving.setAttempt (h : Serving i consumers active a links) (ha : a.restores = none)
    (hb : b.restores = none) : Serving i consumers active b links := by
  refine h.advance ?_ ?_ ?_ ?_
  · rintro attempt p rfl
    cases ha
  · rintro attempt p rfl
    cases hb
  · rintro attempt p c rfl
    cases hb
  · rintro _ p c _ ⟨attempt, p', starting, rfl, -⟩
    cases ha

section Map

variable {f : Consumer → Consumer}

/-- A change of the consumers keeps their places. -/
theorem registered_map {p : ℕ} {c : Consumer} :
    Registered (consumers.map f) p c ↔ ∃ c', Registered consumers p c' ∧ f c' = c := by
  rw [Registered, List.getElem?_map, Option.map_eq_some_iff]

/-- All calls may go on together, when they only wait for `connectPromise` or are rejected. -/
theorem Tidy.map (h : Tidy consumers a links) (hqueue : ∀ c, (f c).queue = c.queue)
    (hconsuming : ∀ c j, (f c).call = .consuming j → c.call = .consuming j)
    (hquiet : ∀ j, a.builds = some j ∨ a.restores = some j → ∀ c, c.call.ready = false →
      (f c).call.ready = false) : Tidy (consumers.map f) a links where
  queues p p' c c' hp hp' heq := by
    obtain ⟨c₁, h₁, rfl⟩ := registered_map.1 hp
    obtain ⟨c₂, h₂, rfl⟩ := registered_map.1 hp'
    exact h.queues p p' c₁ c₂ h₁ h₂ (by rwa [hqueue, hqueue] at heq)
  subscriptions := h.subscriptions
  fresh := h.fresh
  bounded p c j hp hc := by
    obtain ⟨c₁, h₁, rfl⟩ := registered_map.1 hp
    exact h.bounded p c₁ j h₁ (hconsuming c₁ j hc)
  quiet j hj p c hp := by
    obtain ⟨c₁, h₁, rfl⟩ := registered_map.1 hp
    obtain ⟨hready, hne⟩ := h.quiet j hj p c₁ h₁
    exact ⟨hquiet j hj c₁ hready, fun hc ↦ hne (hconsuming c₁ j hc)⟩

/-- A link is served as before when no consumer changes what it waits for there. -/
theorem Serving.map (h : Serving i consumers active a links)
    (hqueue : ∀ c, (f c).queue = c.queue)
    (hgot : ∀ c j, (f c).call = .got j ↔ c.call = .got j)
    (hconsumed : ∀ c j, (f c).call = .consumed j ↔ c.call = .consumed j)
    (hconsuming : ∀ c, (f c).call = .consuming i ↔ c.call = .consuming i) :
    Serving i (consumers.map f) active a links where
  recorded := h.recorded
  known queue hmem := by
    rcases h.known queue hmem with h' | ⟨p, c, hp, rfl, hc⟩ | ⟨attempt, p, c, hattempt, hp, rfl⟩
    · exact Or.inl h'
    · exact Or.inr (Or.inl ⟨p, f c, registered_map.2 ⟨c, hp, rfl⟩, hqueue c, (hconsumed c i).2 hc⟩)
    · exact Or.inr (Or.inr ⟨attempt, p, f c, hattempt, registered_map.2 ⟨c, hp, rfl⟩, hqueue c⟩)
  got p c j hp hc := by
    obtain ⟨c₁, h₁, rfl⟩ := registered_map.1 hp
    exact h.got p c₁ j h₁ ((hgot c₁ j).1 hc)
  consumed p c j hp hc := by
    obtain ⟨c₁, h₁, rfl⟩ := registered_map.1 hp
    rw [hqueue]
    exact h.consumed p c₁ j h₁ ((hconsumed c₁ j).1 hc)
  consuming p c hp hc := by
    obtain ⟨c₁, h₁, rfl⟩ := registered_map.1 hp
    rw [hqueue]
    exact h.consuming p c₁ h₁ ((hconsuming c₁).1 hc)
  pending attempt p c hattempt hp := by
    obtain ⟨c₁, h₁, rfl⟩ := registered_map.1 hp
    rw [hqueue]
    exact h.pending attempt p c₁ hattempt h₁
  resolved attempt p c hattempt hp := by
    obtain ⟨c₁, h₁, rfl⟩ := registered_map.1 hp
    rw [hqueue]
    exact h.resolved attempt p c₁ hattempt h₁
  progress hi p c hp := by
    obtain ⟨c₁, h₁, rfl⟩ := registered_map.1 hp
    rw [hqueue, Call.Serves, hgot, hconsuming, hconsumed]
    exact h.progress hi p c₁ h₁

end Map

/-- `connectPromise` is settled. -/
theorem Tidy.settle (h : Tidy consumers a links) {resolved : Bool} :
    Tidy (consumers.map fun c ↦ { c with call := c.call.settle resolved }) (.settled resolved)
      links :=
  (h.setAttempt (b := .settled resolved) rfl rfl).map (fun _ ↦ rfl)
    (fun c j hc ↦ by cases hcall : c.call <;> simp_all [Call.settle])
    fun j hj ↦ by simp [Attempt.builds, Attempt.restores] at hj

/-- A link is served as before when the waiting consumers are told. -/
theorem Serving.settle (h : Serving i consumers active a links) {resolved : Bool} :
    Serving i (consumers.map fun c ↦ { c with call := c.call.settle resolved }) active a links :=
  h.map (fun _ ↦ rfl) (fun c j ↦ by cases hcall : c.call <;> simp [Call.settle])
    (fun c j ↦ by cases hcall : c.call <;> simp [Call.settle])
    fun c ↦ by cases hcall : c.call <;> simp [Call.settle]

/-! ### Calls go on -/

/-- What a call that goes on leaves of the registered consumers. -/
theorem registered_modify {p p' : ℕ} {c : Consumer} {call : Call} :
    Registered (consumers.modify p fun c ↦ { c with call := call }) p' c ↔
      ∃ c', Registered consumers p' c' ∧
        c = if p' = p then { c' with call := call } else c' := by
  rw [Registered, List.getElem?_modify]
  cases hp : consumers[p']? with
  | none => simp [hp]
  | some c' =>
    by_cases h : p = p'
    · simp [h, hp, eq_comm]
    · simp [h, hp, eq_comm]

variable {p : ℕ} {c : Consumer} {call : Call}

/-- A call may go on while no attempt is at work on its connection. -/
theorem Tidy.modify (h : Tidy consumers a links) (hbuilds : b.builds = none)
    (hrestores : b.restores = none)
    (hsubscriptions : ∀ j, (Link.subscriptionsAt links' j).Nodup)
    (hlength : links.length ≤ links'.length)
    (hcall : ∀ j, call = .consuming j → j < links.length) :
    Tidy (consumers.modify p fun c ↦ { c with call := call }) b links' where
  queues p₁ p₂ c₁ c₂ h₁ h₂ hqueue := by
    obtain ⟨c₁', h₁', rfl⟩ := registered_modify.1 h₁
    obtain ⟨c₂', h₂', rfl⟩ := registered_modify.1 h₂
    refine h.queues p₁ p₂ c₁' c₂' h₁' h₂' ?_
    split at hqueue <;> split at hqueue <;> exact hqueue
  subscriptions := hsubscriptions
  fresh j hj := by simp [hbuilds] at hj
  bounded p' c' j hp' hc' := by
    obtain ⟨c'', h'', rfl⟩ := registered_modify.1 hp'
    refine lt_of_lt_of_le ?_ hlength
    split at hc'
    · exact hcall j hc'
    · exact h.bounded p' c'' j h'' hc'
  quiet j hj := by simp [hbuilds, hrestores] at hj

/-- The current connection `i` when a call goes on. A call that has seen the broker accept may have
started a subscription, or may record it. -/
theorem Serving.modify (h : Serving i consumers active a links) (htidy : Tidy consumers a links)
    (ha : a.restores = none) (hc : Registered consumers p c)
    (hrecorded : ∀ queue ∈ active', queue ∈ Link.subscriptionsAt links' i)
    (hactive : active ⊆ active')
    (hnew : ∀ queue ∈ Link.subscriptionsAt links' i, queue ∈ Link.subscriptionsAt links i ∨
      queue = c.queue ∧ call = .consumed i)
    (hkept : ∀ queue ∈ Link.subscriptionsAt links i, queue ∈ Link.subscriptionsAt links' i)
    (hlive : Link.LiveAt links' i → Link.LiveAt links i)
    (hgot : ∀ j, call = .got j → j = i)
    (hconsumed : ∀ j, call = .consumed j → j = i ∧ c.queue ∈ Link.subscriptionsAt links' i)
    (hconsuming : call = .consuming i → c.queue ∉ Link.subscriptionsAt links' i)
    (hbefore : c.call = .consumed i → c.queue ∈ active')
    (hprogress : Link.LiveAt links i → c.call.Serves i → c.queue ∈ active' ∨ call.Serves i) :
    Serving i (consumers.modify p fun c ↦ { c with call := call }) active' a links' where
  recorded := hrecorded
  known queue hqueue := by
    rcases hnew queue hqueue with hold | ⟨rfl, rfl⟩
    · rcases h.known queue hold with h' | ⟨p', c', hp', rfl, hcall⟩ | ⟨attempt, p', c', rfl, -⟩
      · exact Or.inl (hactive h')
      · rcases eq_or_ne p' p with rfl | hne
        · obtain rfl := Option.some.inj (hc.symm.trans hp')
          exact Or.inl (hbefore hcall)
        · exact Or.inr (Or.inl ⟨p', c',
            registered_modify.2 ⟨c', hp', by rw [if_neg hne]⟩, rfl, hcall⟩)
      · cases ha
    · exact Or.inr (Or.inl ⟨p, { c with call := .consumed i },
        registered_modify.2 ⟨c, hc, by rw [if_pos rfl]⟩, rfl, rfl⟩)
  got p' c' j hp' hc' := by
    obtain ⟨c'', h'', rfl⟩ := registered_modify.1 hp'
    split at hc'
    · exact hgot j hc'
    · exact h.got p' c'' j h'' hc'
  consumed p' c' j hp' hc' := by
    obtain ⟨c'', h'', rfl⟩ := registered_modify.1 hp'
    split at hc'
    · rename_i heq
      subst heq
      obtain rfl := Option.some.inj (hc.symm.trans h'')
      rw [if_pos rfl]
      exact hconsumed j hc'
    · rename_i hne
      rw [if_neg hne]
      exact (h.consumed p' c'' j h'' hc').imp_right (hkept _)
  consuming p' c' hp' hc' := by
    obtain ⟨c'', h'', rfl⟩ := registered_modify.1 hp'
    split at hc'
    · rename_i heq
      subst heq
      obtain rfl := Option.some.inj (hc.symm.trans h'')
      rw [if_pos rfl]
      exact hconsuming hc'
    · rename_i hne
      rw [if_neg hne]
      intro hmem
      rcases hnew _ hmem with hold | ⟨hqueue, -⟩
      · exact h.consuming p' c'' h'' hc' hold
      · exact hne (htidy.queues p' p c'' c h'' hc hqueue)
  pending attempt p' c' hattempt := by rw [hattempt] at ha; cases ha
  resolved attempt p' c' hattempt := by rw [hattempt] at ha; cases ha
  progress hi p' c' hp' := by
    obtain ⟨c'', h'', rfl⟩ := registered_modify.1 hp'
    have hold := h.progress (hlive hi) p' c'' h''
    rcases eq_or_ne p' p with rfl | hne
    · obtain rfl := Option.some.inj (hc.symm.trans h'')
      rw [if_pos rfl]
      rcases hold with h' | h' | h'
      · exact Or.inl (hactive h')
      · exact (hprogress (hlive hi) h').imp_right Or.inl
      · exact Or.inr (Or.inr h')
    · rw [if_neg hne]
      exact hold.imp_left fun h' ↦ hactive h'

/-! ### Queues are registered -/

/-- A new consumer is registered at the end. -/
theorem registered_append {p : ℕ} {c c' : Consumer} :
    Registered (consumers ++ [c]) p c' ↔
      Registered consumers p c' ∨ p = consumers.length ∧ c' = c := by
  rcases lt_trichotomy p consumers.length with h | rfl | h
  · rw [Registered, List.getElem?_append_left h]
    exact ⟨Or.inl, fun h' ↦ h'.resolve_right fun h'' ↦ h.ne h''.1⟩
  · rw [Registered, List.getElem?_concat_length, Registered, List.getElem?_eq_none le_rfl]
    simp [eq_comm]
  · rw [Registered, List.getElem?_eq_none (by simp; omega), Registered,
      List.getElem?_eq_none h.le]
    simp [h.ne']

/-- A consumer of a new queue keeps the consumers in order. -/
theorem Tidy.append (h : Tidy consumers a links) {c : Consumer}
    (hnew : c.queue ∉ consumers.map (·.queue)) (hcall : ∀ j, c.call ≠ .consuming j)
    (hquiet : ∀ j, a.builds = some j ∨ a.restores = some j → c.call.ready = false) :
    Tidy (consumers ++ [c]) a links where
  queues p p' c₁ c₂ h₁ h₂ hqueue := by
    have hother : ∀ p c', Registered consumers p c' → c'.queue ≠ c.queue := fun p c' hp heq ↦
      hnew (heq ▸ List.mem_map_of_mem (List.mem_of_getElem? hp))
    rcases registered_append.1 h₁ with h₁' | ⟨rfl, rfl⟩
    · rcases registered_append.1 h₂ with h₂' | ⟨rfl, rfl⟩
      · exact h.queues p p' c₁ c₂ h₁' h₂' hqueue
      · exact absurd hqueue (hother p c₁ h₁')
    · rcases registered_append.1 h₂ with h₂' | ⟨rfl, rfl⟩
      · exact absurd hqueue.symm (hother p' c₂ h₂')
      · rfl
  subscriptions := h.subscriptions
  fresh := h.fresh
  bounded p c' j hp hc := by
    rcases registered_append.1 hp with hp | ⟨-, rfl⟩
    · exact h.bounded p c' j hp hc
    · exact absurd hc (hcall j)
  quiet j hj p c' hp := by
    rcases registered_append.1 hp with hp | ⟨-, rfl⟩
    · exact h.quiet j hj p c' hp
    · exact ⟨hquiet j hj, hcall j⟩

/-- A call of `consume` finds the current connection. -/
theorem Serving.append (h : Serving i consumers active a links) (ha : a.restores = none)
    {queue : String} : Serving i (consumers ++ [⟨queue, .got i⟩]) active a links where
  recorded := h.recorded
  known queue' hqueue := by
    rcases h.known queue' hqueue with h' | ⟨p, c, hp, hc⟩ | ⟨attempt, p, c, rfl, -⟩
    · exact Or.inl h'
    · exact Or.inr (Or.inl ⟨p, c, registered_append.2 (Or.inl hp), hc⟩)
    · cases ha
  got p c j hp hc := by
    rcases registered_append.1 hp with hp | ⟨-, rfl⟩
    · exact h.got p c j hp hc
    · exact (Call.got.inj hc).symm
  consumed p c j hp hc := by
    rcases registered_append.1 hp with hp | ⟨-, rfl⟩
    · exact h.consumed p c j hp hc
    · cases hc
  consuming p c hp hc := by
    rcases registered_append.1 hp with hp | ⟨-, rfl⟩
    · exact h.consuming p c hp hc
    · cases hc
  pending attempt p c hattempt := by rw [hattempt] at ha; cases ha
  resolved attempt p c hattempt := by rw [hattempt] at ha; cases ha
  progress hi p c hp := by
    rcases registered_append.1 hp with hp | ⟨-, rfl⟩
    · exact h.progress hi p c hp
    · exact Or.inr (Or.inl (Or.inl rfl))

/-! ### Steps -/

namespace State

variable {s s' : State} {config : Config} {attempt : ℕ}

/-- The consumers, and those of the current connection. -/
structure Sound (s : State) : Prop where
  tidy : Tidy s.consumers s.attempt s.links
  serving : ∀ i, s.channel = some i →
    Serving i s.consumers s.activeConsumers s.attempt s.links

/-- Nothing is subscribed at the start. -/
theorem sound_initial : initial.Sound where
  tidy := ⟨by simp [initial], by simp [initial, Link.subscriptionsAt],
    by simp [initial, Link.subscriptionsAt], by simp [initial], by simp [initial]⟩
  serving i hi := by cases hi

/-- Telling the waiting consumers keeps the state sound. -/
theorem Sound.settle (h : s.Sound) {resolved : Bool} (hrestores : s.attempt.restores = none) :
    (s.settle resolved).Sound where
  tidy := h.tidy.settle
  serving i hi := (h.serving i hi).settle.setAttempt hrestores rfl

/-- An attempt that begins keeps the state sound. -/
theorem Sound.tryConnect (h : s.Sound) (hrestores : s.attempt.restores = none) :
    (s.tryConnect config attempt).Sound := by
  unfold State.tryConnect
  split
  · exact h.settle hrestores
  · exact ⟨h.tidy.setAttempt rfl rfl, fun i hi ↦ (h.serving i hi).setAttempt hrestores rfl⟩

/-- So does an attempt that fails. -/
theorem Sound.attemptFailed (h : s.Sound) (hrestores : s.attempt.restores = none) :
    (s.attemptFailed config attempt).Sound := by
  unfold State.attemptFailed
  split
  · exact ⟨h.tidy.setAttempt rfl rfl, fun i hi ↦ (h.serving i hi).setAttempt hrestores rfl⟩
  · exact h.settle hrestores

/-- So does the start of the retries. -/
theorem Sound.connectWithRetry (h : s.Sound) : (s.connectWithRetry config).Sound := by
  unfold State.connectWithRetry
  split
  · rename_i hidle
    exact h.tryConnect (by rw [hidle.2]; rfl)
  · exact h

/-- Connecting leaves the current connection and the registered queues alone. -/
theorem connectWithRetry_frame : (s.connectWithRetry config).channel = s.channel ∧
    (s.connectWithRetry config).consumers.map (·.queue) = s.consumers.map (·.queue) := by
  unfold State.connectWithRetry
  split
  · unfold State.tryConnect
    split
    · exact ⟨rfl, by rw [State.settle, List.map_map]; rfl⟩
    · exact ⟨rfl, rfl⟩
  · exact ⟨rfl, rfl⟩

/-- Without a current connection there is none to serve. -/
theorem sound_of_channel_eq_none (htidy : Tidy s.consumers s.attempt s.links)
    (hchannel : s.channel = none) : s.Sound :=
  ⟨htidy, fun i hi ↦ by simp [hchannel] at hi⟩

/-- The loop begins a round at the consumer of this position. -/
theorem sound_restoreFrom {p : ℕ}
    (htidy : Tidy s.consumers (.restoring attempt i p (.consuming .rejected)) s.links)
    (hserving : ∀ j, s.channel = some j → j = i ∧ Serving i s.consumers s.activeConsumers
      (.restoring attempt i p (.consuming .rejected)) s.links) :
    (s.restoreFrom attempt i p).Sound := by
  have hrestoring : ∀ starting, Tidy s.consumers (.restoring attempt i p starting) s.links :=
    fun starting ↦ ⟨htidy.queues, htidy.subscriptions, fun j hj ↦ (by cases hj), htidy.bounded,
      htidy.quiet⟩
  unfold State.restoreFrom
  split
  · rename_i hend
    refine ⟨htidy.settle, fun j hj ↦ ?_⟩
    obtain ⟨rfl, hserve⟩ := hserving j hj
    refine hserve.settle.advance (fun _ _ h' ↦ by cases h') (fun _ _ h' ↦ by cases h')
      (fun _ _ _ h' ↦ by cases h') fun _ p' c hp' hreaches ↦ ?_
    -- there is nothing at the position, so every consumer comes before it
    obtain ⟨_, position, _, heq, hreach⟩ := hreaches
    cases heq
    obtain ⟨c', hc', -⟩ := registered_map.1 hp'
    have hlt : p' < s.consumers.length := (List.getElem?_eq_some_iff.1 hc').1
    have hle : s.consumers.length ≤ p := List.getElem?_eq_none_iff.1 hend
    omega
  · rename_i c hc
    split
    · rename_i hactive
      refine ⟨hrestoring _, fun j hj ↦ ?_⟩
      obtain ⟨rfl, hserve⟩ := hserving j hj
      refine hserve.advance (fun _ _ h' ↦ by cases h') (fun _ _ h' ↦ by cases h')
        (fun _ _ _ h' ↦ by cases h') fun _ p' c' hp' hreaches ↦ ?_
      obtain ⟨_, position, _, heq, hreach⟩ := hreaches
      cases heq
      rcases hreach with hlt | ⟨rfl, -⟩
      · exact Or.inr (Or.inr ⟨_, _, _, rfl, Or.inl hlt⟩)
      · obtain rfl := Option.some.inj (hc.symm.trans hp')
        exact Or.inl hactive
    · rename_i hactive
      split
      · refine ⟨hrestoring _, fun j hj ↦ ?_⟩
        obtain ⟨rfl, hserve⟩ := hserving j hj
        refine hserve.advance (fun _ _ h' ↦ by cases h') (fun _ _ h' ↦ by cases h')
          (fun _ p' c' h' hp' ↦ ?_) fun _ p' c' hp' hreaches ↦ ?_
        · -- nobody else could have subscribed to it
          cases h'
          obtain rfl := Option.some.inj (hc.symm.trans hp')
          intro hmem
          rcases hserve.known _ hmem with h₁ | ⟨p₁, c₁, h₁, -, hconsumed⟩ | ⟨_, _, _, h₁, -⟩
          · exact hactive h₁
          · have hready := (htidy.quiet j (Or.inr rfl) p₁ c₁ h₁).1
            rw [hconsumed] at hready
            cases hready
          · cases h₁
        · obtain ⟨_, position, _, heq, hreach⟩ := hreaches
          cases heq
          exact Or.inr (Or.inr ⟨_, _, _, rfl, hreach.imp_right fun h' ↦ ⟨h'.1, by simp⟩⟩)
      · refine ⟨hrestoring _, fun j hj ↦ ?_⟩
        obtain ⟨rfl, hserve⟩ := hserving j hj
        exact hserve

/-- A new current connection has no subscription yet. -/
theorem Sound.publish (h : s.Sound) {call : SetUpCall} {reply : Reply}
    (hattempt : s.attempt = .settingUp attempt i call reply) : (s.publish attempt i).Sound := by
  have hbuilds : s.attempt.builds = some i := by rw [hattempt]; rfl
  have hempty : Link.subscriptionsAt s.links i = [] := h.tidy.fresh i hbuilds
  have hquiet := h.tidy.quiet i (Or.inl hbuilds)
  have hserving : Serving i s.consumers ∅ (.restoring attempt i 0 (.consuming .rejected)) s.links :=
    { recorded := fun queue hqueue ↦ absurd hqueue (Finset.notMem_empty queue)
      known := fun queue hqueue ↦ by
        rw [hempty] at hqueue
        cases hqueue
      got := fun p c k hp hc ↦ by
        have hready := (hquiet p c hp).1
        rw [hc] at hready
        cases hready
      consumed := fun p c k hp hc ↦ by
        have hready := (hquiet p c hp).1
        rw [hc] at hready
        cases hready
      consuming := fun p c hp hc ↦ absurd hc (hquiet p c hp).2
      pending := fun _ _ _ h' ↦ by cases h'
      resolved := fun _ _ _ h' ↦ by cases h'
      progress := fun _ p c _ ↦ Or.inr (Or.inr ⟨attempt, 0, .consuming .rejected, rfl,
        (Nat.eq_zero_or_pos p).symm.imp id fun h' ↦ ⟨h'.symm, by simp⟩⟩) }
  refine sound_restoreFrom ⟨h.tidy.queues, h.tidy.subscriptions, fun j hj ↦ (by cases hj),
    h.tidy.bounded, fun j hj p c hp ↦ ?_⟩ fun j hj ↦ ⟨(Option.some.inj hj).symm, hserving⟩
  rcases hj with hj | hj <;> cases hj
  exact hquiet p c hp

/-- **A step of an attempt keeps the state sound.** -/
theorem Sound.continueAttempt (h : s.Sound) (hheld : s.Held)
    (hs : s.continueAttempt config = some s') : s'.Sound := by
  unfold State.continueAttempt at hs
  split at hs
  · rename_i attempt i call hattempt
    split at hs <;> cases hs
    · refine sound_of_channel_eq_none ⟨h.tidy.queues, h.tidy.subscriptions, fun j hj ↦ ?_,
        h.tidy.bounded, fun j hj ↦ ?_⟩
        (hheld.channel_eq_none (by rw [hattempt]; rfl) (by rw [hattempt]; rfl))
      · exact h.tidy.fresh j (by rw [hattempt]; exact hj)
      · exact h.tidy.quiet j (by rw [hattempt]; exact hj)
    · exact h.publish hattempt
  · rename_i attempt i call hattempt
    cases hs
    exact sound_of_channel_eq_none ((h.tidy.stop Link.stops_closeChannel i).setAttempt rfl rfl)
      (hheld.channel_eq_none (by rw [hattempt]; rfl) (by rw [hattempt]; rfl))
  · rename_i attempt i p hattempt
    split at hs <;> cases hs
    rename_i c hc
    have htidy := h.tidy
    rw [hattempt] at htidy
    refine ⟨⟨htidy.queues, htidy.subscriptions, fun j hj ↦ (by cases hj), htidy.bounded,
      htidy.quiet⟩, fun j hj ↦ ?_⟩
    obtain rfl := hheld.eq_of_restores (by rw [hattempt]; rfl) (by rw [hattempt]; rfl) hj
    have hserve := h.serving j hj
    rw [hattempt] at hserve
    exact
      { recorded := fun queue hqueue ↦ by
          rcases Finset.mem_insert.1 hqueue with rfl | hqueue
          · exact hserve.resolved attempt p c rfl hc
          · exact hserve.recorded queue hqueue
        known := fun queue hqueue ↦ by
          rcases hserve.known queue hqueue with h₁ | h₁ | ⟨attempt', p', c', heq, h₁, rfl⟩
          · exact Or.inl (Finset.mem_insert_of_mem h₁)
          · exact Or.inr (Or.inl h₁)
          · cases heq
            obtain rfl := Option.some.inj (hc.symm.trans h₁)
            exact Or.inl (Finset.mem_insert_self _ _)
        got := hserve.got
        consumed := hserve.consumed
        consuming := hserve.consuming
        pending := fun _ _ _ h' ↦ by cases h'
        resolved := fun _ _ _ h' ↦ by cases h'
        progress := fun hlive p' c' hp' ↦ by
          rcases hserve.progress hlive p' c' hp' with h₁ | h₁ | ⟨_, _, _, heq, hreach⟩
          · exact Or.inl (Finset.mem_insert_of_mem h₁)
          · exact Or.inr (Or.inl h₁)
          · cases heq
            rcases hreach with hlt | ⟨rfl, -⟩
            · exact Or.inr (Or.inr ⟨_, _, _, rfl, Or.inl hlt⟩)
            · obtain rfl := Option.some.inj (hc.symm.trans hp')
              exact Or.inl (Finset.mem_insert_self _ _) }
  · rename_i attempt i p hattempt
    cases hs
    have htidy := h.tidy
    rw [hattempt] at htidy
    refine sound_restoreFrom ⟨htidy.queues, htidy.subscriptions, fun j hj ↦ (by cases hj),
      htidy.bounded, htidy.quiet⟩ fun j hj ↦ ?_
    obtain rfl := hheld.eq_of_restores (by rw [hattempt]; rfl) (by rw [hattempt]; rfl) hj
    have hserve := h.serving j hj
    rw [hattempt] at hserve
    refine ⟨rfl, hserve.advance (fun _ _ h' ↦ by cases h') (fun _ _ h' ↦ by cases h')
      (fun _ _ _ h' ↦ by cases h') fun _ p' c hp' hreaches ↦ ?_⟩
    obtain ⟨_, _, _, heq, hreach⟩ := hreaches
    cases heq
    rcases hreach with hlt | ⟨-, hne⟩
    · refine Or.inr (Or.inr ⟨_, _, _, rfl, (Nat.lt_or_eq_of_le hlt).imp id fun h' ↦ ⟨h', by simp⟩⟩)
    · exact absurd rfl hne
  · rename_i attempt i p hattempt
    cases hs
    exact sound_of_channel_eq_none ((h.tidy.stop Link.stops_closeChannel i).setAttempt rfl rfl) rfl
  · rename_i attempt i waits hattempt
    split at hs <;> cases hs
    exact sound_of_channel_eq_none ((h.tidy.stop Link.stops_closeConnection i).setAttempt rfl rfl)
      (hheld.channel_eq_none (by rw [hattempt]; rfl) (by rw [hattempt]; rfl))
  · rename_i attempt i waits hattempt
    split at hs <;> cases hs
    exact h.attemptFailed (by rw [hattempt]; rfl)
  · rename_i resolved hattempt
    cases hs
    exact ⟨h.tidy.setAttempt rfl rfl, fun j hj ↦
      (h.serving j hj).setAttempt (by rw [hattempt]; rfl) rfl⟩
  all_goals cases hs

/-- No call of `consume` registers a queue on the current connection while the loop over the
consumers is running there; and a connection becomes the current one before its channel has closed,
or finds a consumer to start. -/
def Undisturbed (s : State) : Event → Prop
  | .consume queue =>
    queue ∈ s.consumers.map (·.queue) ∨ s.channel = none ∨ s.attempt.restores = none
  | .continueAttempt => ∀ i ∈ s.attempt.publishes, s.Live i ∨ s.consumers ≠ []
  | _ => True

instance (s : State) (event : Event) : Decidable (s.Undisturbed event) := by
  cases event <;> unfold Undisturbed <;> infer_instance

/-- **A subscription in an undisturbed run keeps the state sound.** -/
theorem Sound.consume (h : s.Sound) (hheld : s.Held) (henabled : config.enabled = true)
    {queue : String} (hundisturbed : s.Undisturbed (.consume queue)) :
    (s.consume config queue).Sound := by
  unfold State.consume
  split
  · exact h
  rename_i hnew
  rw [if_neg (by simp [henabled])]
  split
  · rename_i i hi
    have hrestores := (hundisturbed.resolve_left hnew).resolve_left (by simp [hi])
    refine ⟨h.tidy.append hnew (fun j ↦ by simp) fun j hj ↦ ?_, fun j hj ↦ ?_⟩
    · rw [hheld.builds_eq_none hi, hrestores] at hj
      rcases hj with hj | hj <;> cases hj
    · obtain rfl := Option.some.inj (hi.symm.trans hj)
      exact (h.serving i hi).append hrestores
  · rename_i hchannel
    have hconnecting : (s.connectWithRetry config).Sound := h.connectWithRetry
    have hsame : (s.connectWithRetry config).channel = s.channel := connectWithRetry_frame.1
    have hqueues : (s.connectWithRetry config).consumers.map (·.queue) =
        s.consumers.map (·.queue) := connectWithRetry_frame.2
    have hnone : (s.connectWithRetry config).channel = none := hsame.trans hchannel
    have houtcome : (s.connectWithRetry config).connectOutcome =
        (s.connectWithRetry config).attempt.outcome := if_neg (by simp [hnone])
    refine sound_of_channel_eq_none (hconnecting.tidy.append (by rwa [hqueues]) (fun j ↦ ?_)
      fun j hj ↦ ?_) hnone
    · rw [houtcome]
      cases (s.connectWithRetry config).attempt.outcome <;> simp
    · rw [houtcome]
      cases hattempt : (s.connectWithRetry config).attempt <;>
        simp_all [Attempt.outcome, Attempt.builds, Attempt.restores, Call.ready]

/-- A call whose answer is there finds no attempt at work on its connection. -/
theorem Sound.calm_of_ready (h : s.Sound) {p : ℕ} {c : Consumer}
    (hc : Registered s.consumers p c) (hready : c.call.ready = true) :
    s.attempt.builds = none ∧ s.attempt.restores = none := by
  constructor
  · refine Option.eq_none_iff_forall_ne_some.2 fun j hj ↦ ?_
    have hquiet := (h.tidy.quiet j (Or.inl hj) p c hc).1
    rw [hready] at hquiet
    cases hquiet
  · refine Option.eq_none_iff_forall_ne_some.2 fun j hj ↦ ?_
    have hquiet := (h.tidy.quiet j (Or.inr hj) p c hc).1
    rw [hready] at hquiet
    cases hquiet

/-- A call goes on without a subscription and without recording one. -/
theorem Sound.onCall (h : s.Sound) {p : ℕ} {c : Consumer} {call : Call}
    (hc : Registered s.consumers p c) (hready : c.call.ready = true)
    (hsettled : ∀ j, c.call ≠ .consumed j)
    (hcall : ∀ j, call = .consuming j → j < s.links.length)
    (hgot : ∀ i j, s.channel = some i → call = .got j → j = i) (hconsumed : ∀ j, call ≠ .consumed j)
    (hconsuming : ∀ i, s.channel = some i → call = .consuming i →
      c.queue ∉ Link.subscriptionsAt s.links i)
    (hprogress : ∀ i, s.channel = some i → s.Live i → c.call.Serves i →
      c.queue ∈ s.activeConsumers ∨ call.Serves i) : (s.onCall p call).Sound := by
  obtain ⟨hbuilds, hrestores⟩ := h.calm_of_ready hc hready
  refine ⟨h.tidy.modify hbuilds hrestores h.tidy.subscriptions le_rfl hcall, fun i hi ↦ ?_⟩
  have hserve := h.serving i hi
  exact hserve.modify h.tidy hrestores hc hserve.recorded subset_rfl
    (fun _ ↦ Or.inl) (fun _ ↦ id) id
    (fun j ↦ hgot i j hi) (fun j h' ↦ absurd h' (hconsumed j)) (hconsuming i hi)
    (fun h' ↦ absurd h' (hsettled i)) (hprogress i hi)

/-- **A step of a waiting consumer keeps the state sound.** -/
theorem Sound.continueCall (h : s.Sound) {p : ℕ}
    (hs : s.continueCall p = some s') : s'.Sound := by
  unfold State.continueCall at hs
  split at hs
  · cases hs
  rename_i c hc
  have hserves : ∀ i resolved, ¬ (Call.settled resolved).Serves i := fun i resolved h' ↦ by
    rcases h' with h' | h' | h' <;> cases h'
  split at hs
  · rename_i resolved hcall
    have hready : c.call.ready = true := by rw [hcall]; rfl
    have hsettled : ∀ j, c.call ≠ .consumed j := fun j ↦ by simp [hcall]
    split at hs <;> cases hs
    · rename_i i hi
      refine h.onCall hc hready hsettled (fun j h' ↦ by cases h') (fun i' j hi' h' ↦ ?_)
        (fun j h' ↦ by cases h') (fun i' _ h' ↦ by cases h')
        fun i' _ _ h' ↦ absurd (hcall ▸ h') (hserves i' _)
      cases h'
      exact Option.some.inj (hi.symm.trans hi')
    · exact h.onCall hc hready hsettled (fun j h' ↦ by cases h') (fun i' j _ h' ↦ by cases h')
        (fun j h' ↦ by cases h') (fun i' _ h' ↦ by cases h')
        fun i' _ _ h' ↦ absurd (hcall ▸ h') (hserves i' _)
    · exact h.onCall hc hready hsettled (fun j h' ↦ by cases h') (fun i' j _ h' ↦ by cases h')
        (fun j h' ↦ by cases h') (fun i' _ h' ↦ by cases h')
        fun i' _ _ h' ↦ absurd (hcall ▸ h') (hserves i' _)
  · rename_i i hcall
    have hready : c.call.ready = true := by rw [hcall]; rfl
    have hsettled : ∀ j, c.call ≠ .consumed j := fun j ↦ by simp [hcall]
    split at hs
    · rename_i hactive
      cases hs
      exact h.onCall hc hready hsettled (fun j h' ↦ by cases h') (fun i' j _ h' ↦ by cases h')
        (fun j h' ↦ by cases h') (fun i' _ h' ↦ by cases h') fun _ _ _ _ ↦ Or.inl hactive
    · rename_i hactive
      split at hs <;> cases hs
      · rename_i hlive
        obtain ⟨hbuilds, hrestores⟩ := h.calm_of_ready hc hready
        refine h.onCall hc hready hsettled (fun j h' ↦ ?_) (fun i' j _ h' ↦ by cases h')
          (fun j h' ↦ by cases h') (fun i' hi' h' ↦ ?_) fun i' hi' _ _ ↦ ?_
        · cases h'
          exact Link.lt_length_of_connectionAt (Link.connectionAt_of_liveAt hlive)
        · -- it is not recorded, and nobody is about to record it
          cases h'
          intro hmem
          rcases (h.serving _ hi').known _ hmem with h₁ | ⟨p₁, c₁, h₁, hqueue, hconsumed⟩ |
            ⟨_, _, _, h₁, -⟩
          · exact hactive h₁
          · obtain rfl := h.tidy.queues p₁ p c₁ c h₁ hc hqueue
            obtain rfl := Option.some.inj (hc.symm.trans h₁)
            exact hsettled _ hconsumed
          · rw [h₁] at hrestores
            cases hrestores
        · have hgot := (h.serving i' hi').got p c i hc hcall
          exact Or.inr (Or.inr (Or.inl (by rw [hgot])))
      · rename_i hdead
        refine h.onCall hc hready hsettled (fun j h' ↦ by cases h') (fun i' j _ h' ↦ by cases h')
          (fun j h' ↦ by cases h') (fun i' _ h' ↦ by cases h') fun i' hi' hlive _ ↦ ?_
        exact absurd ((h.serving i' hi').got p c i hc hcall ▸ hlive) hdead
  · rename_i i hcall
    cases hs
    obtain ⟨hbuilds, hrestores⟩ := h.calm_of_ready hc (by rw [hcall]; rfl)
    refine ⟨h.tidy.modify hbuilds hrestores h.tidy.subscriptions le_rfl fun j h' ↦ (by cases h'),
      fun i' hi' ↦ ?_⟩
    have hserve := h.serving i' hi'
    obtain ⟨rfl, hmem⟩ := hserve.consumed p c i hc hcall
    refine hserve.modify h.tidy hrestores hc (fun queue hqueue ↦ ?_) (Finset.subset_insert _ _)
      (fun _ ↦ Or.inl) (fun _ ↦ id) id (fun j h' ↦ by cases h') (fun j h' ↦ by cases h')
      (fun h' ↦ by cases h') (fun _ ↦ Finset.mem_insert_self _ _)
      fun _ _ ↦ Or.inl (Finset.mem_insert_self _ _)
    rcases Finset.mem_insert.1 hqueue with rfl | hqueue
    · exact hmem
    · exact hserve.recorded queue hqueue
  all_goals cases hs

/-- What waits on a connection that goes is rejected. -/
theorem Tidy.rejectPending (h : Tidy s.consumers s.attempt s.links) :
    Tidy (s.rejectPending i).consumers (s.rejectPending i).attempt s.links := by
  obtain ⟨-, hbuilds, hrestores, -⟩ := rejectPending_attempt (s := s) (i := i)
  refine (h.advance hbuilds hrestores).map (fun c ↦ ?_) (fun c j hc ↦ ?_) fun j _ c hready ↦ ?_
  · split <;> rfl
  · split at hc
    · cases hc
    · exact hc
  · split
    · rfl
    · exact hready

/-- The current connection does not notice when another one goes. -/
theorem Serving.rejectPending {j : ℕ}
    (h : Serving i s.consumers s.activeConsumers s.attempt s.links)
    (hne : i ≠ j) (hphase : s.attempt.rests = true ∨ s.attempt.restores = some i) :
    Serving i (s.rejectPending j).consumers s.activeConsumers (s.rejectPending j).attempt
      s.links := by
  have hattempt : (s.rejectPending j).attempt = s.attempt := by
    simp only [State.rejectPending]
    split
    · rename_i h'
      rw [h'] at hphase
      rcases hphase with h'' | h'' <;> cases h''
    · rename_i h'
      rw [h'] at hphase ⊢
      rcases hphase with h'' | h''
      · cases h''
      · rw [if_neg (by rwa [Option.some.inj h''])]
    · rfl
  rw [hattempt]
  refine h.map (fun c ↦ ?_) (fun c k ↦ ?_) (fun c k ↦ ?_) fun c ↦ ?_
  · split <;> rfl
  all_goals
    split
    · rename_i hc
      simp [hc, hne.symm]
    · exact Iff.rfl

/-- A timer has no part in it. -/
theorem scheduleReconnect_sound : s.scheduleReconnect.Sound ↔ s.Sound := by
  unfold scheduleReconnect
  split
  · exact Iff.rfl
  · exact ⟨fun h ↦ ⟨h.tidy, h.serving⟩, fun h ↦ ⟨h.tidy, h.serving⟩⟩

/-- A connection goes that is not the current one. -/
theorem Sound.stop (h : s.Sound) (hheld : s.Held) {f : Link → Link} (hf : Link.Stops f) {j : ℕ}
    (hj : s.channel ≠ some j) : ((s.onLink j f).rejectPending j).Sound :=
  ⟨Tidy.rejectPending (s := s.onLink j f) (h.tidy.stop hf j), fun i hi ↦
    Serving.rejectPending (s := s.onLink j f) ((h.serving i hi).stop hf j)
      (fun hij ↦ hj (hij ▸ hi)) (hheld.phase i hi)⟩

/-- A lost channel keeps the state sound. -/
theorem Sound.channelClosed (h : s.Sound) (hheld : s.Held) {j : ℕ} : (s.channelClosed j).Sound := by
  rw [State.channelClosed]
  split
  · have htidy := Tidy.rejectPending (s := s.onLink j .channelClosed) (i := j)
      (h.tidy.stop Link.stops_channelClosed j)
    exact scheduleReconnect_sound.2
      (sound_of_channel_eq_none (htidy.stop Link.stops_closeConnection j) rfl)
  · rename_i hj
    exact h.stop hheld Link.stops_channelClosed hj

/-- A lost connection keeps the state sound. -/
theorem Sound.connectionClosed (h : s.Sound) (hheld : s.Held) {j : ℕ} :
    (s.connectionClosed j).Sound := by
  rw [State.connectionClosed]
  split
  · exact scheduleReconnect_sound.2 (sound_of_channel_eq_none
      (Tidy.rejectPending (s := s.onLink j .connectionClosed) (i := j)
        (h.tidy.stop Link.stops_connectionClosed j)) rfl)
  · rename_i hj
    exact h.stop hheld Link.stops_connectionClosed fun h' ↦ hj (Or.inl h')

/-- One more subscription on a live connection. -/
theorem nodup_accept (h : ∀ j, (Link.subscriptionsAt links j).Nodup) (hlive : Link.LiveAt links i)
    {queue : String} (hnew : queue ∉ Link.subscriptionsAt links i) (j : ℕ) :
    (Link.subscriptionsAt (links.modify i (.accept queue)) j).Nodup := by
  rw [Link.subscriptionsAt_accept hlive]
  split
  · rename_i hji
    subst hji
    exact List.nodup_cons.2 ⟨hnew, h j⟩
  · exact h j

/-- The broker accepts a subscription of the loop. -/
theorem Sound.restored (h : s.Sound) (hheld : s.Held) {p : ℕ} {c : Consumer}
    (hattempt : s.attempt = .restoring attempt i p (.consuming .pending))
    (hc : Registered s.consumers p c) (hlive : s.Live i) :
    Sound { s.onLink i (.accept c.queue) with
      attempt := .restoring attempt i p (.consuming .resolved) } := by
  have hchannel : s.channel = some i :=
    (hheld.live i hlive).resolve_right fun h' ↦ by rw [hattempt] at h'; cases h'
  have htidy := h.tidy
  have hserve := h.serving i hchannel
  rw [hattempt] at htidy hserve
  have hnew := hserve.pending attempt p c rfl hc
  have hquiet := htidy.quiet i (Or.inr rfl)
  have hmem : ∀ queue, queue ∈ Link.subscriptionsAt (s.links.modify i (.accept c.queue)) i ↔
      queue = c.queue ∨ queue ∈ Link.subscriptionsAt s.links i := fun queue ↦ by
    rw [Link.subscriptionsAt_accept hlive, if_pos rfl, List.mem_cons]
  refine ⟨⟨htidy.queues, nodup_accept htidy.subscriptions hlive hnew, fun j hj ↦ (by cases hj),
    fun p' c' j hp' hc' ↦ ?_, htidy.quiet⟩, fun j hj ↦ ?_⟩
  · exact (htidy.bounded p' c' j hp' hc').trans_eq (List.length_modify ..).symm
  · obtain rfl := Option.some.inj (hchannel.symm.trans hj)
    exact
      { recorded := fun queue hqueue ↦ (hmem queue).2 (Or.inr (hserve.recorded queue hqueue))
        known := fun queue hqueue ↦ by
          rcases (hmem queue).1 hqueue with rfl | hold
          · exact Or.inr (Or.inr ⟨attempt, p, c, rfl, hc, rfl⟩)
          · rcases hserve.known queue hold with h₁ | h₁ | ⟨_, _, _, h₁, -⟩
            · exact Or.inl h₁
            · exact Or.inr (Or.inl h₁)
            · cases h₁
        got := hserve.got
        consumed := fun p' c' k hp' hc' ↦
          (hserve.consumed p' c' k hp' hc').imp_right fun h₁ ↦ (hmem _).2 (Or.inr h₁)
        consuming := fun p' c' hp' hc' ↦ absurd hc' (hquiet p' c' hp').2
        pending := fun _ _ _ h' ↦ by cases h'
        resolved := fun _ p' c' h' hp' ↦ by
          cases h'
          obtain rfl := Option.some.inj (hc.symm.trans hp')
          exact (hmem _).2 (Or.inl rfl)
        progress := fun _ p' c' hp' ↦ by
          rcases hserve.progress hlive p' c' hp' with h₁ | h₁ | ⟨_, _, _, heq, hreach⟩
          · exact Or.inl h₁
          · exact Or.inr (Or.inl h₁)
          · cases heq
            exact Or.inr (Or.inr ⟨_, _, _, rfl, hreach.imp_right fun h' ↦ ⟨h'.1, by simp⟩⟩) }

/-- The broker accepts the subscription of a call. -/
theorem Sound.accepted (h : s.Sound) (hheld : s.Held) {p : ℕ} {queue : String}
    (hc : Registered s.consumers p ⟨queue, .consuming i⟩) (hlive : s.Live i) :
    ((s.onLink i (.accept queue)).onCall p (.consumed i)).Sound := by
  have hbuilds : s.attempt.builds ≠ some i := fun h' ↦ (h.tidy.quiet i (Or.inl h') p _ hc).2 rfl
  have hchannel : s.channel = some i := (hheld.live i hlive).resolve_right hbuilds
  have hrestores : s.attempt.restores = none := by
    rcases hheld.phase i hchannel with h' | h'
    · cases hattempt : s.attempt <;> simp_all [Attempt.rests, Attempt.restores]
    · exact absurd rfl (h.tidy.quiet i (Or.inr h') p _ hc).2
  have hserve := h.serving i hchannel
  have hnew := hserve.consuming p _ hc rfl
  have hmem : ∀ queue', queue' ∈ Link.subscriptionsAt (s.links.modify i (.accept queue)) i ↔
      queue' = queue ∨ queue' ∈ Link.subscriptionsAt s.links i := fun queue' ↦ by
    rw [Link.subscriptionsAt_accept hlive, if_pos rfl, List.mem_cons]
  refine ⟨h.tidy.modify (hheld.builds_eq_none hchannel) hrestores
    (nodup_accept h.tidy.subscriptions hlive hnew) (List.length_modify ..).ge
    fun j h' ↦ (by cases h'), fun j hj ↦ ?_⟩
  obtain rfl := Option.some.inj (hchannel.symm.trans hj)
  refine hserve.modify h.tidy hrestores hc
    (fun queue' hqueue ↦ (hmem queue').2 (Or.inr (hserve.recorded queue' hqueue))) subset_rfl
    (fun queue' hqueue ↦ ?_) (fun queue' hqueue ↦ (hmem queue').2 (Or.inr hqueue))
    Link.liveAt_accept.1 (fun j h' ↦ by cases h') (fun j h' ↦ ?_) (fun h' ↦ by cases h')
    (fun h' ↦ by cases h') fun _ _ ↦ Or.inr (Or.inr (Or.inr rfl))
  · exact ((hmem queue').1 hqueue).symm.imp_right fun h' ↦ ⟨h', rfl⟩
  · cases h'
    exact ⟨rfl, (hmem queue).2 (Or.inl rfl)⟩

/-- **Every step that does not disturb the loop keeps the subscriptions in order.** -/
theorem sound_of_step (h : s.Sound) (hheld : s.Held) (henabled : config.enabled = true)
    {event : Event} (hundisturbed : s.Undisturbed event) (hs : s.step config event = some s') :
    s'.Sound := by
  cases event with
  | connect =>
    rw [step, if_pos henabled] at hs
    cases hs
    exact h.connectWithRetry
  | consume queue =>
    cases hs
    exact h.consume hheld henabled hundisturbed
  | destroy =>
    simp only [step] at hs
    split at hs <;> cases hs
    refine sound_of_channel_eq_none ?_ rfl
    cases hchannel : s.channel with
    | none => simpa [State.onModuleDestroy, forget, hchannel] using h.tidy
    | some i =>
      simpa [State.onModuleDestroy, forget, hchannel] using h.tidy.stop Link.stops_closeChannel i
  | connected =>
    simp only [step] at hs
    split at hs
    · rename_i attempt hattempt
      split at hs <;> cases hs
      rename_i hdrained
      refine sound_of_channel_eq_none
        ⟨h.tidy.queues, fun j ↦ ?_, fun j hj ↦ ?_, fun p c j hp hc ↦ ?_,
        fun j hj p c hp ↦ ?_⟩
          (hheld.channel_eq_none (by rw [hattempt]; rfl) (by rw [hattempt]; rfl))
      · rw [Link.subscriptionsAt_append]
        exact h.tidy.subscriptions j
      · rw [Link.subscriptionsAt_append]
        exact Link.subscriptionsAt_of_le (Option.some.inj hj).le
      · rw [List.length_append]
        exact (h.tidy.bounded p c j hp hc).trans_le (Nat.le_add_right _ _)
      · refine ⟨hdrained.1 c (List.mem_of_getElem? hp), fun hc ↦ ?_⟩
        rcases hj with hj | hj <;> cases hj
        exact absurd (h.tidy.bounded p c _ hp hc) (lt_irrefl _)
    all_goals cases hs
  | refused =>
    simp only [step] at hs
    split at hs
    · rename_i hattempt
      split at hs <;> cases hs
      exact h.attemptFailed (by rw [hattempt]; rfl)
    all_goals cases hs
  | setUp resolved =>
    simp only [step] at hs
    split at hs
    · rename_i attempt i call hattempt
      have hchannel : s.channel = none :=
        hheld.channel_eq_none (by rw [hattempt]; rfl) (by rw [hattempt]; rfl)
      have htidy : ∀ reply, Tidy s.consumers (.settingUp attempt i call reply) s.links :=
        fun reply ↦ h.tidy.advance (by rw [hattempt]; rfl) (by rw [hattempt]; rfl)
      split at hs
      · split at hs
        · split at hs
          · split at hs <;> cases hs
            exact sound_of_channel_eq_none ((htidy _).relink
              (fun _ ↦ Link.subscriptionsAt_modify_of_eq fun _ ↦ rfl) (List.length_modify ..).ge)
              hchannel
          · split at hs <;> cases hs
            exact sound_of_channel_eq_none (htidy _) hchannel
        · cases hs
          exact sound_of_channel_eq_none (htidy _) hchannel
      · cases hs
    all_goals cases hs
  | delayed =>
    simp only [step] at hs
    split at hs
    · rename_i hattempt
      split at hs <;> cases hs
      exact h.tryConnect (by rw [hattempt]; rfl)
    all_goals cases hs
  | reconnect =>
    simp only [step] at hs
    split at hs
    · have hsound : Sound ({ s with reconnectTimer := false }.connectWithRetry config) :=
        Sound.connectWithRetry (s := { s with reconnectTimer := false }) ⟨h.tidy, h.serving⟩
      split at hs <;> cases hs <;> exact ⟨hsound.tidy, hsound.serving⟩
    · cases hs
  | restored =>
    simp only [step] at hs
    split at hs
    · rename_i attempt i p hattempt
      split at hs
      · rename_i c hc
        split at hs <;> cases hs
        exact h.restored hheld hattempt hc ‹_›
      · cases hs
    all_goals cases hs
  | accepted p =>
    simp only [step] at hs
    split at hs
    · rename_i queue i hc
      split at hs <;> cases hs
      exact h.accepted hheld hc ‹_›
    all_goals cases hs
  | channelClosed i =>
    simp only [step] at hs
    split at hs <;> cases hs
    exact h.channelClosed hheld
  | connectionClosed i =>
    simp only [step] at hs
    split at hs <;> cases hs
    exact h.connectionClosed hheld
  | continueAttempt => exact h.continueAttempt hheld hs
  | continueCall position => exact h.continueCall hs
  | continueExhausted =>
    simp only [step] at hs
    split at hs <;> cases hs
    exact scheduleReconnect_sound.2 ⟨h.tidy, h.serving⟩
  | continueDestroy =>
    simp only [step, State.continueDestroy] at hs
    split at hs
    · rename_i connection waits hdestroy
      split at hs <;> cases hs
      cases connection with
      | none => exact ⟨h.tidy, h.serving⟩
      | some j =>
        exact ⟨h.tidy.stop Link.stops_closeConnection j, fun i hi ↦
          (h.serving i hi).stop Link.stops_closeConnection j⟩
    · split at hs <;> cases hs
      exact ⟨h.tidy, h.serving⟩
    all_goals cases hs

end State

end WalletConversion.RabbitMqConnection
