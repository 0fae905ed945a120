import WalletConversion.Messaging.Message

/-!
# A message on its way through the broker

A consumer that cannot handle a message publishes a copy of it and deletes the message after that: a
failure may strike between any two steps. `Copies` follows one message with everything that was
published for it, and `Copies.step` is one step of `startConsumer`, of `handleConsumerFailure`, or
of the broker.

## What is assumed of the broker

* A confirmed publication is in the queue bound to its routing key. Whether a rejected or timed out
  publication is stored is open, and it may still be stored later.
* A message that was delivered and not acknowledged is queued again when it is refused with `nack`,
  or when its channel closes. Closing a channel is a step for each message it holds.
* What was published is delivered with its body, its identity and its headers.

Other messages matter in one way only: `waitForConfirms` waits for everything on the channel, so it
may fail because of them. `Signal.refuse` may happen at any time.
-/

namespace WalletConversion

open RabbitMqConnection

/-! ### Places -/

/-- How far a consumer has got with a delivered message. -/
inductive Stage where
  /-- The handler is running. -/
  | running
  /-- The handler has resolved. -/
  | succeeded
  /-- The handler has rejected. -/
  | failed (errorCode : String)
  /-- A copy was handed to the channel, and its confirmation is awaited. -/
  | awaiting (copy : ℕ)
  /-- The copy was confirmed. -/
  | confirmed (copy : ℕ)
  /-- Publishing has failed. -/
  | refused
  deriving DecidableEq

/-- Where a copy is. -/
inductive Place where
  /-- Handed to the channel, and not yet at the broker. -/
  | inFlight (routingKey : String)
  /-- It never arrived. -/
  | lost
  | queued
  | delivered (stage : Stage)
  | deadLettered
  /-- Acknowledged for the sake of a copy, or because the handler succeeded. -/
  | acked (copy : Option ℕ)
  deriving DecidableEq

/-- The broker has got it. -/
def Place.stored : Place → Bool
  | .inFlight _ | .lost => false
  | _ => true

/-- It can still be handled, or waits for someone to look after it. -/
def Place.live : Place → Bool
  | .queued | .delivered _ | .deadLettered => true
  | _ => false

/-- A failure is being handled. -/
def Place.failing : Place → Bool
  | .delivered (.failed _) | .delivered (.awaiting _) | .delivered (.confirmed _)
  | .delivered .refused => true
  | _ => false

/-- Where the broker puts a publication with the routing key. -/
def Place.arrival (routingKey : String) : Option Place :=
  (boundQueue routingKey).map fun
    | .execution => .queued
    | .deadLetter => .deadLettered

/-- A publication and where it is now. -/
structure Copy where
  message : Message
  place : Place

/-- A message and its copies, in the order of their publication. -/
abbrev Copies := List Copy

/-! ### Steps -/

/-- What may happen to a copy. -/
inductive Signal where
  /-- The broker delivers the copy. -/
  | deliver (i : ℕ)
  | resolve (i : ℕ)
  | reject (i : ℕ) (errorCode : String)
  /-- `handleConsumerFailure` publishes a copy of it. -/
  | republish (i : ℕ)
  | store (i : ℕ)
  | lose (i : ℕ)
  | confirm (i : ℕ)
  /-- Publishing throws, is rejected, or is not confirmed in time. -/
  | refuse (i : ℕ)
  | ack (i : ℕ)
  /-- `channel.ack` throws. -/
  | throwAck (i : ℕ) (errorCode : String)
  | nack (i : ℕ)
  /-- The channel closes. -/
  | close (i : ℕ)
  deriving DecidableEq

/-- The copy it happens to. -/
def Signal.copy : Signal → ℕ
  | deliver i | resolve i | reject i _ | republish i | store i | lose i | confirm i
  | refuse i | ack i
  | throwAck i _ | nack i | close i => i

/-- No publication, no acknowledgement and no channel fails. -/
def Signal.smooth : Signal → Bool
  | lose _ | refuse _ | throwAck _ _ | nack _ | close _ => false
  | _ => true

/-- The handler is run. -/
def Signal.runs : Signal → Bool
  | deliver _ => true
  | _ => false

/-- The handler has succeeded. -/
def Signal.succeeds : Signal → Bool
  | resolve _ => true
  | _ => false

namespace Copies

/-- Copy `i` is stored. -/
def stored (copies : Copies) (i : ℕ) : Bool := copies[i]?.any fun c ↦ c.place.stored

/-- Where a signal takes a copy. -/
def next (copies : Copies) : Signal → Place → Option Place
  | .deliver _, .queued => some (.delivered .running)
  | .resolve _, .delivered .running => some (.delivered .succeeded)
  | .reject _ errorCode, .delivered .running => some (.delivered (.failed errorCode))
  | .republish _, .delivered (.failed _) => some (.delivered (.awaiting copies.length))
  | .store _, .inFlight routingKey => Place.arrival routingKey
  | .lose _, .inFlight _ => some .lost
  | .confirm _, .delivered (.awaiting j) =>
    if copies.stored j then some (.delivered (.confirmed j)) else none
  | .refuse _, .delivered (.failed _) => some (.delivered .refused)
  | .refuse _, .delivered (.awaiting _) => some (.delivered .refused)
  | .ack _, .delivered .succeeded => some (.acked none)
  | .ack _, .delivered (.confirmed j) => some (.acked (some j))
  -- the `catch` of `startConsumer` takes it for a failure of the handler
  | .throwAck _ errorCode, .delivered .succeeded => some (.delivered (.failed errorCode))
  | .throwAck _ _, .delivered (.confirmed _) => some (.delivered .refused)
  | .nack _, .delivered .refused => some .queued
  | .close _, .delivered _ => some .queued
  | _, _ => none

/-- The copy that a signal publishes. -/
def published (consumerMaxRetries : SafeNat) : Signal → Copy → List Copy
  | .republish _, ⟨message, .delivered (.failed errorCode)⟩ =>
    let p := failurePublication consumerMaxRetries
        CONVERSION_EXECUTION_ROUTING_KEY errorCode message
    [⟨p.message, .inFlight p.routingKey⟩]
  | _, _ => []

/-- A copy takes its next step; a step that publishes adds a copy at the end. -/
def step (consumerMaxRetries : SafeNat) (copies : Copies) (signal : Signal) : Option Copies :=
  copies[signal.copy]?.bind fun c ↦ (copies.next signal c.place).map fun place ↦
    copies.set signal.copy { c with place := place } ++ published consumerMaxRetries signal c

/-- One signal after the other. -/
def run (consumerMaxRetries : SafeNat) : Copies → List Signal → Option Copies
  | copies, [] => some copies
  | copies, signal :: signals =>
    (copies.step consumerMaxRetries signal).bind fun copies ↦ run consumerMaxRetries copies signals

/-- A message that waits in the execution queue. -/
def initial (message : Message) : Copies := [⟨message, .queued⟩]

/-! ### What a step does -/

variable {consumerMaxRetries : SafeNat} {copies copies' : Copies} {signal : Signal}
  {signals : List Signal} {i j : ℕ} {c d : Copy}

/-- What one step does. -/
theorem step_eq_some : copies.step consumerMaxRetries signal = some copies' ↔
    ∃ c place, copies[signal.copy]? = some c ∧ copies.next signal c.place = some place ∧
      copies' = copies.set signal.copy { c with place := place } ++
        published consumerMaxRetries signal c := by
  simp only [step, Option.bind_eq_some_iff, Option.map_eq_some_iff, eq_comm (a := copies')]
  constructor
  · rintro ⟨c, hc, place, hplace, h⟩
    exact ⟨c, place, hc, hplace, h⟩
  · rintro ⟨c, place, hc, hplace, h⟩
    exact ⟨c, hc, place, hplace, h⟩

/-- A property that every step keeps is kept by runs. -/
theorem run_induction {P : Copies → Prop} (hstep : ∀ copies copies' signal, signal ∈ signals →
      copies.step consumerMaxRetries signal = some copies' → P copies → P copies')
    (h : copies.run consumerMaxRetries signals = some copies') (hP : P copies) : P copies' := by
  induction signals generalizing copies with
  | nil =>
    cases h
    exact hP
  | cons signal signals ih =>
    obtain ⟨copies₁, h₁, hrest⟩ := Option.bind_eq_some_iff.1 h
    exact ih (fun a b s hs ↦ hstep a b s (List.mem_cons_of_mem _ hs)) hrest
      (hstep _ _ _ List.mem_cons_self h₁ hP)

/-- A stored copy stays stored. -/
theorem stored_of_next {place place' : Place} (h : copies.next signal place = some place')
    (hs : place.stored = true) : place'.stored = true := by
  unfold next at h
  split at h <;> first
    | (cases h; rfl)
    | (cases hs; done)
    | (split at h <;> cases h; rfl)
    | cases h

/-- A copy that has reached a queue has done so for good. -/
theorem stored_of_step (h : copies.step consumerMaxRetries signal = some copies')
    (hs : copies.stored i = true) : copies'.stored i = true := by
  obtain ⟨c, place, hc, hplace, rfl⟩ := step_eq_some.1 h
  obtain ⟨d, hd, hstored⟩ := (Option.any_eq_true _ _).1 hs
  have hi : i < copies.length := (List.getElem?_eq_some_iff.1 hd).1
  rw [stored, List.getElem?_append_left (by rwa [List.length_set])]
  by_cases he : signal.copy = i
  · subst he
    rw [hc, Option.some.injEq] at hd
    subst hd
    rw [List.getElem?_set_self hi]
    exact stored_of_next hplace hstored
  · rw [List.getElem?_set_ne he, hd]
    exact hstored

/-- No copy disappears. -/
theorem length_le_of_step (h : copies.step consumerMaxRetries signal = some copies') :
    copies.length ≤ copies'.length := by
  obtain ⟨c, place, -, -, rfl⟩ := step_eq_some.1 h
  rw [List.length_append, List.length_set]
  omega

/-- A failed delivery publishes one copy more. -/
theorem published_of_failed {k : ℕ} {errorCode : String}
    (h : c.place = .delivered (.failed errorCode)) :
    published consumerMaxRetries (.republish k) c =
      [⟨(failurePublication consumerMaxRetries CONVERSION_EXECUTION_ROUTING_KEY errorCode
          c.message).message,
        .inFlight (failurePublication consumerMaxRetries CONVERSION_EXECUTION_ROUTING_KEY errorCode
          c.message).routingKey⟩] := by
  obtain ⟨message, place⟩ := c
  cases h
  rfl

/-- A step publishes at most one copy. -/
theorem length_published_le (consumerMaxRetries : SafeNat) (signal : Signal) (c : Copy) :
    (published consumerMaxRetries signal c).length ≤ 1 := by
  unfold published
  split <;> simp

/-- Where a copy comes from: it was there, it has moved, or it is new. -/
theorem getElem?_of_step (h : copies.step consumerMaxRetries signal = some copies')
    (hd : copies'[i]? = some d) :
    (i ≠ signal.copy ∧ copies[i]? = some d) ∨
    (∃ c place, i = signal.copy ∧ copies[i]? = some c ∧ copies.next signal c.place = some place ∧
      d = { c with place := place }) ∨
    ∃ c, i = copies.length ∧ copies[signal.copy]? = some c ∧
      d ∈ published consumerMaxRetries signal c := by
  obtain ⟨c, place, hc, hplace, rfl⟩ := step_eq_some.1 h
  have hcopy : signal.copy < copies.length := (List.getElem?_eq_some_iff.1 hc).1
  rcases lt_or_ge i copies.length with hi | hi
  · rw [List.getElem?_append_left (by rwa [List.length_set])] at hd
    by_cases he : signal.copy = i
    · subst he
      rw [List.getElem?_set_self hi, Option.some.injEq] at hd
      exact .inr (.inl ⟨c, place, rfl, hc, hplace, hd.symm⟩)
    · rw [List.getElem?_set_ne he] at hd
      exact .inl ⟨Ne.symm he, hd⟩
  · rw [List.getElem?_append_right (by rwa [List.length_set]), List.length_set] at hd
    have hlt : i - copies.length < (published consumerMaxRetries signal c).length :=
      (List.getElem?_eq_some_iff.1 hd).1
    have hone := length_published_le consumerMaxRetries signal c
    exact .inr (.inr ⟨c, by omega, hc, List.mem_of_getElem? hd⟩)

theorem length_of_republish {k : ℕ} {errorCode : String}
    (h : copies.step consumerMaxRetries (.republish k) = some copies') (hc : copies[k]? = some c)
    (hfailed : c.place = .delivered (.failed errorCode)) : copies'.length = copies.length + 1 := by
  obtain ⟨c', place, hc', -, rfl⟩ := step_eq_some.1 h
  obtain rfl : c' = c := Option.some.inj (hc'.symm.trans hc)
  rw [List.length_append, List.length_set, published_of_failed hfailed, List.length_singleton]

/-- Only the handling of a failure publishes. -/
theorem published_eq_nil (h : ∀ i errorCode, signal = .republish i →
    c.place ≠ .delivered (.failed errorCode)) : published consumerMaxRetries signal c = [] := by
  unfold published
  split
  · exact absurd rfl (h _ _ rfl)
  · rfl

/-- What is published is on its way, and a copy. -/
theorem published_inFlight (h : d ∈ published consumerMaxRetries signal c) :
    (∃ routingKey, d.place = .inFlight routingKey) ∧ d.message.CopyOf c.message := by
  unfold published at h
  split at h
  · obtain rfl := List.mem_singleton.1 h
    exact ⟨⟨_, rfl⟩, failurePublication_copyOf⟩
  · cases h

/-- **Every copy is a copy of the message.** -/
theorem copyOf_of_step {m : Message} (h : copies.step consumerMaxRetries signal = some copies')
    (hcopies : ∀ c ∈ copies, c.message.CopyOf m) : ∀ d ∈ copies', d.message.CopyOf m := by
  intro d hd
  obtain ⟨i, hi⟩ := List.mem_iff_getElem?.1 hd
  rcases getElem?_of_step h hi with ⟨-, hold⟩ | ⟨c, place, -, hc, -, rfl⟩ | ⟨c, -, hc, hnew⟩
  · exact hcopies d (List.mem_of_getElem? hold)
  · exact hcopies c (List.mem_of_getElem? hc)
  · exact (published_inFlight hnew).2.trans (hcopies c (List.mem_of_getElem? hc))

/-! ### Nothing is deleted before it is copied -/

/-- Who waits for a copy, or has made way for it, points to it. -/
def Leads (copies : Copies) (i : ℕ) : Place → Prop
  | .delivered (.awaiting j) => i < j ∧ j < copies.length
  | .delivered (.confirmed j) | .acked (some j) => i < j ∧ copies.stored j = true
  | _ => True

/-- Every place that tells of another copy is right about it. -/
def Linked (copies : Copies) : Prop := ∀ i c, copies[i]? = some c → copies.Leads i c.place

/-- What a place tells of another copy stays right. -/
theorem Leads.mono {place : Place} (h : copies.Leads i place)
    (hlength : copies.length ≤ copies'.length)
    (hstored : ∀ j, copies.stored j = true → copies'.stored j = true) : copies'.Leads i place := by
  unfold Leads at h ⊢
  split at h
  · exact ⟨h.1, h.2.trans_le hlength⟩
  · exact ⟨h.1, hstored _ h.2⟩
  · exact ⟨h.1, hstored _ h.2⟩
  · trivial

/-- A link is made when a copy is published, and handed on after that. -/
theorem leads_of_next {place place' : Place} (h : copies.next signal place = some place')
    (hlead : copies.Leads i place) : copies.Leads i place' ∨
      ∃ k errorCode, signal = .republish k ∧ place = .delivered (.failed errorCode) ∧
        place' = .delivered (.awaiting copies.length) := by
  unfold next at h
  split at h
  case h_4 k errorCode =>
    cases h
    exact .inr ⟨k, errorCode, rfl, rfl, rfl⟩
  case h_5 routingKey =>
    obtain ⟨queue, -, rfl⟩ := Option.map_eq_some_iff.1 h
    cases queue <;> exact .inl trivial
  case h_7 j =>
    split at h
    case isTrue hj =>
      cases h
      exact .inl ⟨hlead.1, hj⟩
    case isFalse => cases h
  case h_11 j =>
    cases h
    exact .inl hlead
  all_goals first
    | (cases h; exact .inl trivial)
    | cases h

/-- **Every step keeps the links.** -/
theorem linked_of_step (h : copies.step consumerMaxRetries signal = some copies')
    (hlinked : copies.Linked) : copies'.Linked := by
  have hstored : ∀ j, copies.stored j = true → copies'.stored j = true :=
    fun _ ↦ stored_of_step h
  have hlength : copies.length ≤ copies'.length := length_le_of_step h
  intro i d hd
  rcases getElem?_of_step h hd with ⟨-, hold⟩ | ⟨c, place, hi, hc, hplace, rfl⟩ | ⟨c, -, -, hnew⟩
  · exact (hlinked i d hold).mono hlength hstored
  · rcases leads_of_next hplace (hlinked i c hc) with hlead | ⟨k, errorCode, rfl, hfailed, rfl⟩
    · exact hlead.mono hlength hstored
    · -- the copy it waits for is the new one
      have hlt : i < copies.length := (List.getElem?_eq_some_iff.1 hc).1
      subst hi
      exact ⟨hlt, by rw [length_of_republish h hc hfailed]; exact Nat.lt_succ_self _⟩
  · obtain ⟨routingKey, hplace⟩ := (published_inFlight hnew).1
    rw [hplace]
    trivial

/-- A place at which a message was deleted because its handler succeeded. -/
def Succeeded (copies : Copies) : Prop := ∃ c ∈ copies, c.place = .acked none

/-- **A message that has arrived stays alive** until a handler has succeeded. -/
theorem exists_live (hlinked : copies.Linked) (harrived : copies.stored i = true)
    (hnot : ¬ copies.Succeeded) : ∃ c ∈ copies, c.place.live = true := by
  obtain ⟨c, hc, hstored⟩ := (Option.any_eq_true _ _).1 harrived
  -- follow the links from the copy on
  induction hn : copies.length - i using Nat.strong_induction_on generalizing i c with
  | _ n ih =>
    have hi : i < copies.length := (List.getElem?_eq_some_iff.1 hc).1
    have hmem : c ∈ copies := List.mem_of_getElem? hc
    have hlink := hlinked i c hc
    rcases hplace : c.place with routingKey | _ | _ | stage | _ | ⟨_ | j⟩
    · simp [hplace, Place.stored] at hstored
    · simp [hplace, Place.stored] at hstored
    · exact ⟨c, hmem, by rw [hplace]; rfl⟩
    · exact ⟨c, hmem, by rw [hplace]; rfl⟩
    · exact ⟨c, hmem, by rw [hplace]; rfl⟩
    · exact absurd ⟨c, hmem, hplace⟩ hnot
    · rw [hplace] at hlink
      obtain ⟨hlt, hj⟩ := hlink
      obtain ⟨d, hd, hstored'⟩ := (Option.any_eq_true _ _).1 hj
      exact ih (copies.length - j) (by omega) hj d hd hstored' rfl

end Copies

end WalletConversion
