import WalletConversion.Application.Reference
import WalletConversion.Guarantees.Publishing
import WalletConversion.Ledger.Calls
import WalletConversion.Messaging.Pipeline

/-!
# From the accept to the settlement

`Accounted` is the invariant of the pipeline. It follows the event of a conversion from the outbox
into the broker: whatever a publisher has at hand is a row of the outbox, a parcel carries the
payload of its row, a row is marked only after its parcel has arrived, an execution has the payload
of the parcel it serves, and a message is given up as handled only when its conversion is settled.

Two results are read off.

* `app_reaches` — the pipeline keeps the promise on which everything about the application rests:
  every execution is called with the payload of an outbox row.
* `no_event_lost` — while a conversion waits to be executed, its event is in the outbox to be
  published, or a message with it is in a queue or with a consumer.
-/

namespace WalletConversion

open Transactional RabbitMqConnection

namespace Pipeline

open Ledger

variable {env : Platform} {lossy : List UInt8 → String} {consumerMaxRetries : SafeNat}
  {wallets : Table (String × String) WalletRow} {P P' : Pipeline} {a b : Db}

/-- Any number of steps. -/
def Reaches (env : Platform) (lossy : List UInt8 → String) (consumerMaxRetries : SafeNat) :
    Pipeline → Pipeline → Prop :=
  Relation.ReflTransGen fun P P' ↦ ∃ h, P.step env lossy consumerMaxRetries h = some P'

/-! ### What is carried -/

/-- The outbox has the row, with the payload. -/
def Carried (db : Db) (id : String) (payload : ConversionExecutionRequestedPayload) : Prop :=
  ∃ row, db.outbox.lookup id = some row ∧ row.payload = payload

/-- An event goes on carrying its payload. -/
theorem Carried.evolves {id : String} {payload : ConversionExecutionRequestedPayload}
    (h : Carried a id payload) (hev : Evolves a b) : Carried b id payload := by
  obtain ⟨row, hrow, hpayload⟩ := h
  obtain ⟨row', hrow', he⟩ := hev.outbox id row hrow
  exact ⟨row', hrow', he.terms.2.2.1.trans hpayload⟩

/-- The messages that a call of `publishBatch` has still to deal with. -/
def messages : OutboxPublisherService.Call → List OutboxMessage
  | .publishing message rest _ | .marking message rest _ _ => message :: rest
  | .selecting | .returned _ | .threw => []

/-- Going round the loop keeps what the batch is left with. -/
theorem messages_loop (batch : List OutboxMessage) (published : ℕ) :
    messages (.loop batch published) = batch := by
  cases batch <;> rfl

/-- An answer leaves nothing to deal with that was not there. -/
theorem messages_next {call call' : OutboxPublisherService.Call} {a : OutboxPublisherService.Answer}
    (h : call.next a = some call') : messages call' ⊆ messages call := by
  unfold OutboxPublisherService.Call.next at h
  split at h
  · cases h
    exact fun _ ↦ id
  · cases h
    exact fun _ hm ↦ by cases hm
  · cases h
    rw [messages_loop]
    exact fun _ ↦ List.mem_cons_of_mem _
  · cases h
    exact fun _ hm ↦ by cases hm
  · cases h

section Service

variable {s s' : OutboxPublisherService.State} {batchSize i : ℕ}
  {call : OutboxPublisherService.Call} {answer : OutboxPublisherService.Answer}

theorem calls_onCall (hi : i < s.calls.length) (call : OutboxPublisherService.Call) :
    (s.onCall i call).calls[i]? = some call := by
  rw [OutboxPublisherService.State.onCall, List.getElem?_set_self hi]

theorem calls_loop (hi : i < s.calls.length) (batch : List OutboxMessage) (published : ℕ) :
    (s.loop i batch published).calls[i]? = some (.loop batch published) := by
  cases batch <;> exact calls_onCall hi _

/-- **The calls of the pipeline go on as those of the service do.** Once its batch is selected, an
answer takes a call where `Call.next` says, unless the database refuses the mark. -/
theorem next_of_answer (hcall : s.calls[i]? = some call) (hselecting : call ≠ .selecting)
    (h : s.answer batchSize i call answer = some s') :
    (∃ call', call.next answer = some call' ∧ s'.calls[i]? = some call') ∨
      ∃ published, answer = .marked ∧ s'.calls[i]? = some (.returned published) := by
  have hi : i < s.calls.length := (List.getElem?_eq_some_iff.1 hcall).1
  unfold OutboxPublisherService.State.answer at h
  split at h
  · exact absurd rfl hselecting
  · exact absurd rfl hselecting
  · cases h
    exact .inl ⟨_, rfl, calls_onCall hi _⟩
  · cases h
    exact .inl ⟨_, rfl, calls_onCall hi _⟩
  · cases h
    unfold OutboxPublisherService.State.mark
    split
    · exact .inl ⟨_, rfl, calls_loop (by exact hi) _ _⟩
    · exact .inr ⟨_, rfl, calls_onCall hi _⟩
    · exact .inr ⟨_, rfl, calls_onCall hi _⟩
  · cases h
    exact .inl ⟨_, rfl, calls_onCall hi _⟩
  · cases h

end Service

/-- **A mark is the only commit that publishes a row.** -/
theorem published_of_commit {t : Task} (h : Commit env t a b) {e : String} {o : OutboxRow}
    (ho : b.outbox.lookup e = some o) (hpublished : o.publishedAt ≠ none) :
    (∃ o', a.outbox.lookup e = some o' ∧ o'.publishedAt ≠ none) ∨
      ∃ at', t = .markPublished e at' := by
  cases h with
  | accepted =>
    rcases Table.lookup_insert_cases ho with ⟨rfl, rfl⟩ | ⟨-, hold⟩
    · exact absurd rfl hpublished
    · exact .inl ⟨o, hold, hpublished⟩
  | @published id publishedAt =>
    rcases Table.lookup_insert_cases ho with ⟨rfl, rfl⟩ | ⟨-, hold⟩
    · exact .inr ⟨_, rfl⟩
    · exact .inl ⟨o, hold, hpublished⟩
  | _ => exact .inl ⟨o, ho, hpublished⟩

/-! ### The invariant -/

/-- The parcel has arrived at the broker. -/
def Arrived (parcels : List Parcel) (id : String) : Prop :=
  ∃ (k : ℕ) (parcel : Parcel), parcels[k]? = some parcel ∧ parcel.eventId = id ∧
    parcel.copies.stored 0 = true

/-- A message of the parcel has been handled. -/
def handled : Place → Bool
  | .delivered .succeeded | .acked none => true
  | _ => false

/-- What holds of a parcel. -/
structure ParcelAccounted (db : Db) (parcel : Parcel) : Prop where
  carried : Carried db parcel.eventId parcel.payload
  linked : parcel.copies.Linked
  copies : ∀ c ∈ parcel.copies, c.message.CopyOf
    (publication CONVERSION_EXECUTION_ROUTING_KEY parcel.payload).message
  settled : ∀ c ∈ parcel.copies, handled c.place = true → Settled parcel.payload db

/-- What holds of a call of `publishBatch`. -/
structure BatchAccounted (db : Db) (parcels : List Parcel) (batch : Batch) : Prop where
  carried : ∀ message ∈ messages batch.call, Carried db message.id message.payload
  handed : ∀ message rest published k, batch.call = .publishing message rest published →
    batch.waits = some k → ∃ parcel, parcels[k]? = some parcel ∧ parcel.eventId = message.id

/-- **Everything is accounted for.** -/
structure Accounted (env : Platform) (wallets : Table (String × String) WalletRow) (P : Pipeline) :
    Prop where
  reaches : System.Reaches env (System.initial wallets) P.app
  batches : ∀ batch ∈ P.batches, BatchAccounted P.app.db P.parcels batch
  parcels : ∀ parcel ∈ P.parcels, ParcelAccounted P.app.db parcel
  marks : ∀ pid p id publishedAt, P.app.procs.lookup pid = some p →
    p.task = .markPublished id publishedAt → Arrived P.parcels id
  published : ∀ e o, P.app.db.outbox.lookup e = some o → o.publishedAt ≠ none → Arrived P.parcels e
  serving : ∀ k i pid, P.serving.lookup (k, i) = some pid → ∃ parcel p inputs,
    P.parcels[k]? = some parcel ∧ P.app.procs.lookup pid = some p ∧
      p.task = .execute parcel.payload inputs

/-- At the start there is no event to account for. -/
theorem accounted_initial : Accounted env wallets (initial wallets) where
  reaches := .refl
  batches _ h := by cases h
  parcels _ h := by cases h
  marks pid p id publishedAt h := by cases h
  published e o h := by cases h
  serving k i pid h := by cases h

/-! ### Moves of the application -/

/-- A batch stays accounted for. -/
theorem BatchAccounted.evolves {parcels : List Parcel} {batch : Batch}
    (h : BatchAccounted a parcels batch) (hev : Evolves a b) : BatchAccounted b parcels batch where
  carried message hm := (h.carried message hm).evolves hev
  handed := h.handed

/-- A parcel stays accounted for. -/
theorem ParcelAccounted.evolves {parcel : Parcel} (h : ParcelAccounted a parcel)
    (hev : Evolves a b) : ParcelAccounted b parcel where
  carried := h.carried.evolves hev
  linked := h.linked
  copies := h.copies
  settled c hc hhandled := (h.settled c hc hhandled).evolves hev

/-- **A move of the application keeps the account**, if the call it starts may be started, and marks
rows that have arrived only. -/
theorem Accounted.move (hwallets : InitialWallets wallets) (h : Accounted env wallets P)
    {m : Move Task} {app : System} (hm : P.app.step postgres (Task.program env) m = some app)
    (hspawn : ∀ pid t, m = .spawn pid t → Admissible P.app t ∧
      ∀ id publishedAt, t = .markPublished id publishedAt → Arrived P.parcels id) :
    Accounted env wallets { P with app := app } := by
  have hstep : System.Step env P.app app := ⟨m, fun pid t he ↦ (hspawn pid t he).1, hm, trivial⟩
  have hsound := sound_of_reaches hwallets h.reaches
  have hev : Evolves P.app.db app.db := hsound.evolves_of_step hstep
  constructor
  case reaches => exact h.reaches.tail hstep
  case batches => exact fun batch hb ↦ (h.batches batch hb).evolves hev
  case parcels => exact fun parcel hp ↦ (h.parcels parcel hp).evolves hev
  case marks =>
    intro pid p id publishedAt hp htask
    rcases State.task_of_step hm hp with ⟨q, hq, hqtask⟩ | hnew
    · exact h.marks pid q id publishedAt hq (hqtask ▸ htask)
    · exact (hspawn pid _ hnew).2 id publishedAt htask
  case published =>
    intro e o ho hpublished
    rcases hsound.change_of_step hstep with heq | ⟨pid, p, _, _, hp, -, -, -, -, -, hcommit⟩
    · exact h.published e o (heq ▸ ho) hpublished
    · rcases published_of_commit hcommit ho hpublished with ⟨o', ho', hpublished'⟩ | ⟨at', htask⟩
      · exact h.published e o' ho' hpublished'
      · exact h.marks pid p e at' hp htask
  case serving =>
    intro k i pid hserving
    obtain ⟨parcel, p, inputs, hparcel, hp, htask⟩ := h.serving k i pid hserving
    obtain ⟨p', _, hp', htask', -⟩ := State.history_of_step hm hp
    exact ⟨parcel, p', inputs, hparcel, hp', htask'.trans htask⟩

/-! ### Steps of a publisher -/

/-- A batch that moves on keeps every event accounted for. -/
theorem Accounted.onBatch (h : Accounted env wallets P) (i : ℕ) {batch : Batch}
    (hbatch : BatchAccounted P.app.db P.parcels batch) :
    Accounted env wallets (P.onBatch i batch) where
  reaches := h.reaches
  batches b hb := by
    rcases List.mem_or_eq_of_mem_set hb with hold | rfl
    · exact h.batches b hold
    · exact hbatch
  parcels := h.parcels
  marks := h.marks
  published := h.published
  serving := h.serving

/-- A call that has got an answer waits for nothing. -/
theorem BatchAccounted.next {parcels : List Parcel} {batch : Batch} {db : Db}
    (h : BatchAccounted db parcels batch) {answer : OutboxPublisherService.Answer}
    {call : OutboxPublisherService.Call} (hnext : batch.call.next answer = some call) :
    BatchAccounted db parcels ⟨call, none⟩ where
  carried message hm := h.carried message (messages_next hnext hm)
  handed _ _ _ _ _ hwaits := by cases hwaits

/-! ### Parcels -/

/-- Every parcel is still there, and what has arrived has not gone. -/
def Extends (parcels parcels' : List Parcel) : Prop :=
  ∀ (k : ℕ) (parcel : Parcel), parcels[k]? = some parcel → ∃ parcel', parcels'[k]? = some parcel' ∧
    parcel'.eventId = parcel.eventId ∧ parcel'.payload = parcel.payload ∧
    (parcel.copies.stored 0 = true → parcel'.copies.stored 0 = true)

/-- What has arrived has arrived for good. -/
theorem Arrived.extends {parcels parcels' : List Parcel} {id : String} (h : Arrived parcels id)
    (hext : Extends parcels parcels') : Arrived parcels' id := by
  obtain ⟨k, parcel, hparcel, hid, hstored⟩ := h
  obtain ⟨parcel', hparcel', hid', -, hstored'⟩ := hext k parcel hparcel
  exact ⟨k, parcel', hparcel', hid'.trans hid, hstored' hstored⟩

/-- More parcels keep every event accounted for. -/
theorem Accounted.extend (h : Accounted env wallets P) {parcels : List Parcel}
    {serving : Table (ℕ × ℕ) ℕ} (hext : Extends P.parcels parcels)
    (hparcels : ∀ parcel ∈ parcels, ParcelAccounted P.app.db parcel)
    (hserving : ∀ key pid, serving.lookup key = some pid → P.serving.lookup key = some pid) :
    Accounted env wallets { P with parcels := parcels, serving := serving } where
  reaches := h.reaches
  batches batch hb := by
    refine ⟨(h.batches batch hb).carried, fun message rest published k hcall hwaits ↦ ?_⟩
    obtain ⟨parcel, hparcel, hid⟩ :=
      (h.batches batch hb).handed message rest published k hcall hwaits
    obtain ⟨parcel', hparcel', hid', -⟩ := hext k parcel hparcel
    exact ⟨parcel', hparcel', hid'.trans hid⟩
  parcels := hparcels
  marks pid p id publishedAt hp htask := (h.marks pid p id publishedAt hp htask).extends hext
  published e o ho hpublished := (h.published e o ho hpublished).extends hext
  serving k i pid hpid := by
    obtain ⟨parcel, p, inputs, hparcel, hp, htask⟩ := h.serving k i pid (hserving _ _ hpid)
    obtain ⟨parcel', hparcel', -, hpayload, -⟩ := hext k parcel hparcel
    exact ⟨parcel', p, inputs, hparcel', hp, hpayload ▸ htask⟩

theorem extends_append (parcels more : List Parcel) : Extends parcels (parcels ++ more) := by
  intro k parcel hparcel
  have hk : k < parcels.length := (List.getElem?_eq_some_iff.1 hparcel).1
  exact ⟨parcel, by rwa [List.getElem?_append_left hk], rfl, rfl, id⟩

/-- A parcel on its way. -/
theorem parcelAccounted_parcelOf {db : Db} {message : OutboxMessage}
    (h : Carried db message.id message.payload) : ParcelAccounted db (parcelOf message) where
  carried := h
  linked i c hc := by
    rcases i with - | i
    · cases hc
      trivial
    · cases hc
  copies c hc := by
    rw [List.mem_singleton.1 hc]
    exact .refl _
  settled c hc hhandled := by
    rw [List.mem_singleton.1 hc] at hhandled
    cases hhandled

/-- A copy is handled only when its handler has returned. -/
theorem handled_of_next {copies : Copies} {signal : Signal} {place place' : Place}
    (h : copies.next signal place = some place') (hhandled : handled place' = true) :
    handled place = true ∨ ∃ i, signal = .resolve i := by
  unfold Copies.next at h
  split at h
  case h_2 i => exact .inr ⟨i, rfl⟩
  case h_5 routingKey =>
    obtain ⟨queue, -, rfl⟩ := Option.map_eq_some_iff.1 h
    cases queue <;> cases hhandled
  case h_7 =>
    split at h <;> cases h
    cases hhandled
  case h_10 => exact .inl rfl
  all_goals first
    | (cases h; cases hhandled)
    | cases h

/-- What is handled was handled before, or its handler has just resolved. -/
theorem handled_of_step {copies copies' : Copies} {signal : Signal}
    (h : copies.step consumerMaxRetries signal = some copies') {c : Copy} (hc : c ∈ copies')
    (hhandled : handled c.place = true) :
    (∃ c ∈ copies, handled c.place = true) ∨ ∃ i, signal = .resolve i := by
  obtain ⟨i, hi⟩ := List.mem_iff_getElem?.1 hc
  rcases Copies.getElem?_of_step h hi with ⟨-, hold⟩ |
    ⟨d, place, -, hd, hplace, rfl⟩ | ⟨d, -, -, hnew⟩
  · exact .inl ⟨c, List.mem_of_getElem? hold, hhandled⟩
  · exact (handled_of_next hplace hhandled).imp (fun h ↦ ⟨d, List.mem_of_getElem? hd, h⟩) id
  · obtain ⟨⟨routingKey, hplace⟩, -⟩ := Copies.published_inFlight hnew
    rw [hplace] at hhandled
    cases hhandled

/-- **The execution of a handler that resolves has settled the conversion.** -/
theorem Accounted.settled_of_resolve (hwallets : InitialWallets wallets)
    (h : Accounted env wallets P)
    {k i : ℕ} {parcel : Parcel} (hparcel : P.parcels[k]? = some parcel)
    (hpermits : P.permits lossy k (.resolve i) = true) : Settled parcel.payload P.app.db := by
  obtain ⟨pid, hpid, hreturned⟩ := (Option.any_eq_true _ _).1 hpermits
  obtain ⟨p, hp, hreturned⟩ := (Option.any_eq_true _ _).1 hreturned
  obtain ⟨parcel', p', inputs, hparcel', hp', htask⟩ := h.serving k i pid hpid
  obtain rfl : p' = p := Option.some.inj (hp'.symm.trans hp)
  obtain rfl : parcel' = parcel := Option.some.inj (hparcel'.symm.trans hparcel)
  obtain ⟨hlive, hrest⟩ := of_decide_eq_true hreturned
  have hsound := sound_of_reaches hwallets h.reaches
  cases hret : p'.rest with
  | ret r =>
    have hanswer := (hsound.post_of_ret hp hlive hret).2
    rw [htask] at hanswer
    exact hanswer
  | raise | call | begin | commit | rollback =>
    rw [hret] at hrest
    cases hrest

/-- **What happens to a copy keeps the account.** -/
theorem Accounted.signal (hwallets : InitialWallets wallets) (h : Accounted env wallets P) {k : ℕ}
    {signal : Signal} {parcel : Parcel} {copies : Copies} (hparcel : P.parcels[k]? = some parcel)
    (hcopies : parcel.copies.step consumerMaxRetries signal = some copies)
    (hpermits : P.permits lossy k signal = true) :
    Accounted env wallets { P with
      parcels := P.parcels.set k { parcel with copies := copies }
      serving := P.served k signal } := by
  have hk : k < P.parcels.length := (List.getElem?_eq_some_iff.1 hparcel).1
  have hbefore := h.parcels parcel (List.mem_of_getElem? hparcel)
  refine h.extend (fun k' parcel' hparcel' ↦ ?_) (fun parcel' hparcel' ↦ ?_) fun key pid hpid ↦ ?_
  · by_cases hne : k = k'
    · subst hne
      obtain rfl : parcel' = parcel := Option.some.inj (hparcel'.symm.trans hparcel)
      exact ⟨_, List.getElem?_set_self hk, rfl, rfl, Copies.stored_of_step hcopies⟩
    · exact ⟨parcel', by rwa [List.getElem?_set_ne hne], rfl, rfl, id⟩
  · rcases List.mem_or_eq_of_mem_set hparcel' with hold | rfl
    · exact h.parcels parcel' hold
    · refine ⟨hbefore.carried, Copies.linked_of_step hcopies hbefore.linked,
        Copies.copyOf_of_step hcopies hbefore.copies, fun c hc hhandled ↦ ?_⟩
      rcases handled_of_step hcopies hc hhandled with ⟨d, hd, hd'⟩ | ⟨i, rfl⟩
      · exact hbefore.settled d hd hd'
      · have hsettled : Settled parcel.payload P.app.db :=
          h.settled_of_resolve hwallets hparcel hpermits
        exact hsettled
  · unfold served at hpid
    split at hpid
    · rename_i i
      by_cases hkey : key = (k, i)
      · subst hkey
        rw [Finmap.lookup_erase] at hpid
        cases hpid
      · rwa [Finmap.lookup_erase_ne hkey] at hpid
    · exact hpid

/-! ### Steps -/

/-- What it takes to start a call. -/
theorem start_eq_some {pid : ℕ} {t : Task} (h : P.start env pid t = some P') :
    Startable P.app t ∧ ∃ app, P.app.step postgres (Task.program env) (.spawn pid t) = some app ∧
      P' = { P with app := app } := by
  unfold start at h
  split at h
  · rename_i hstart
    obtain ⟨app, happ, rfl⟩ := Option.map_eq_some_iff.1 h
    exact ⟨hstart, app, happ, rfl⟩
  · cases h

/-- A call is started that may be. -/
theorem Accounted.start (hwallets : InitialWallets wallets) (h : Accounted env wallets P) {pid : ℕ}
    {t : Task} (hgenuine : t.Genuine P.app.db)
    (hmarks : ∀ id publishedAt, t = .markPublished id publishedAt → Arrived P.parcels id)
    (hstart : P.start env pid t = some P') : Accounted env wallets P' := by
  obtain ⟨hstartable, app, happ, rfl⟩ := start_eq_some hstart
  refine h.move hwallets happ ?_
  rintro _ _ ⟨⟩
  exact ⟨⟨hstartable.1, hgenuine, hstartable.2⟩, hmarks⟩

/-- A move that starts no call. -/
theorem Accounted.goOn (hwallets : InitialWallets wallets) (h : Accounted env wallets P)
    {m : Move Task} (hm : m.spawned = none) (hmove : P.move env m = some P') :
    Accounted env wallets P' := by
  obtain ⟨app, happ, rfl⟩ := Option.map_eq_some_iff.1 hmove
  refine h.move hwallets happ fun pid t he ↦ ?_
  rw [he] at hm
  cases hm

/-- A parcel that has arrived is the arrival of its event. -/
theorem arrived_of_arrived {k : ℕ} {parcel : Parcel} (hparcel : P.parcels[k]? = some parcel)
    (h : P.arrived k = true) : Arrived P.parcels parcel.eventId := by
  obtain ⟨parcel', hparcel', hstored⟩ := (Option.any_eq_true _ _).1 h
  obtain rfl : parcel' = parcel := Option.some.inj (hparcel'.symm.trans hparcel)
  exact ⟨k, parcel', hparcel', rfl, hstored⟩

/-- **A consumer starts an execution of what it has read**, which is the payload of an outbox
row. -/
theorem Accounted.handle (hwallets : InitialWallets wallets) (h : Accounted env wallets P)
    {k i pid : ℕ} {c : Copy} {payload : ConversionExecutionRequestedPayload}
    {inputs : ExecuteInputs}
    (hrunning : P.running k i = some c)
    (hreceived : ExecutionConsumerService.received lossy c.message.content = some payload)
    (hstart : (P.serve k i pid).start env pid (.execute payload inputs) = some P') :
    Accounted env wallets P' := by
  obtain ⟨parcel, hparcel, hcopy⟩ := Option.bind_eq_some_iff.1 hrunning
  obtain ⟨c', hc', hplace⟩ := Option.bind_eq_some_iff.1 hcopy
  obtain rfl : c' = c := by
    split at hplace
    · exact Option.some.inj hplace
    · cases hplace
  have haccounted := h.parcels parcel (List.mem_of_getElem? hparcel)
  have hcontent := haccounted.copies c' (List.mem_of_getElem? hc')
  rw [ExecutionConsumerService.received_of_copyOf lossy hcontent] at hreceived
  obtain rfl := ExecutionConsumerService.eq_of_received hreceived
  obtain ⟨hstartable, app, happ, rfl⟩ := start_eq_some hstart
  obtain ⟨row, hrow, hpayload⟩ := haccounted.carried
  -- the call is started first, and serves the copy then
  have hafter : Accounted env wallets { P with app := app } := by
    refine h.move hwallets happ ?_
    rintro _ _ ⟨⟩
    exact ⟨⟨hstartable.1, ⟨_, row, hrow, hpayload⟩, hstartable.2⟩, by rintro _ _ ⟨⟩⟩
  refine { hafter with serving := fun k' i' pid' hpid' ↦ ?_ }
  rcases Table.lookup_insert_cases hpid' with ⟨hkey, rfl⟩ | ⟨-, hold⟩
  · cases hkey
    exact ⟨parcel, _, inputs, hparcel, State.lookup_of_spawn happ, rfl⟩
  · exact hafter.serving k' i' pid' hold

/-- **Every step keeps the account.** -/
theorem Accounted.step (hwallets : InitialWallets wallets) (h : Accounted env wallets P)
    {happening : Happening} (hstep : P.step env lossy consumerMaxRetries happening = some P') :
    Accounted env wallets P' := by
  cases happening with
  | request pid t =>
    simp only [Pipeline.step] at hstep
    split at hstep
    · rename_i hrequested
      have hgenuine : t.Genuine P.app.db := by
        cases t with
        | execute => cases hrequested
        | _ => trivial
      refine h.start hwallets hgenuine ?_ hstep
      rintro _ _ rfl
      cases hrequested
    · cases hstep
  | run pid => exact h.goOn hwallets rfl hstep
  | fail pid => exact h.goOn hwallets rfl hstep
  | select batchSize place =>
    simp only [Pipeline.step] at hstep
    split at hstep
    · rename_i batch b hselect
      cases hstep
      have hselected := OutboxPublisherService.selected_of_findUnpublished hselect
      refine { h with batches := fun batch' hbatch' ↦ ?_ }
      rcases List.mem_append.1 hbatch' with hold | hnew
      · exact h.batches batch' hold
      · rw [List.mem_singleton.1 hnew]
        refine ⟨fun message hm ↦ ?_, fun _ _ _ _ _ hwaits ↦ (by cases hwaits)⟩
        rw [messages_loop] at hm
        obtain ⟨row, hrow, -, hpayload, -⟩ := hselected.rows message hm
        exact ⟨row, hrow, hpayload.symm⟩
    · cases hstep
    · cases hstep
  | publish i =>
    simp only [Pipeline.step] at hstep
    split at hstep
    · rename_i message rest published hbatch
      cases hstep
      have hbefore := h.batches _ (List.mem_of_getElem? hbatch)
      have hcarried := hbefore.carried message List.mem_cons_self
      have hafter : Accounted env wallets { P with parcels := P.parcels ++ [parcelOf message] } :=
        h.extend (extends_append _ _) (fun parcel hparcel ↦ by
          rcases List.mem_append.1 hparcel with hold | hnew
          · exact h.parcels parcel hold
          · rw [List.mem_singleton.1 hnew]
            exact parcelAccounted_parcelOf hcarried) fun _ _ ↦ id
      refine hafter.onBatch i ⟨hbefore.carried, ?_⟩
      rintro _ _ _ _ ⟨⟩ ⟨⟩
      exact ⟨parcelOf message, List.getElem?_concat_length, rfl⟩
    · cases hstep
  | confirm i pid now =>
    simp only [Pipeline.step] at hstep
    split at hstep
    · rename_i message rest published k hbatch
      split at hstep
      · rename_i harrived
        have hbefore := h.batches _ (List.mem_of_getElem? hbatch)
        obtain ⟨parcel, hparcel, hid⟩ := hbefore.handed message rest published k rfl rfl
        have hmarking : Accounted env wallets
            (P.onBatch i ⟨.marking message rest published now, some pid⟩) :=
          h.onBatch i ⟨hbefore.carried, fun _ _ _ _ hcall ↦ (by cases hcall)⟩
        have hgenuine : (Task.markPublished message.id now).Genuine P.app.db := trivial
        refine hmarking.start hwallets hgenuine ?_ hstep
        rintro _ _ ⟨⟩
        exact hid ▸ arrived_of_arrived hparcel harrived
      · cases hstep
    · cases hstep
  | publishFailed i =>
    obtain ⟨batch, hbatch, hstep⟩ := Option.bind_eq_some_iff.1 hstep
    obtain ⟨call, hcall, hstep⟩ := Option.bind_eq_some_iff.1 hstep
    cases hstep
    exact h.onBatch i ((h.batches batch (List.mem_of_getElem? hbatch)).next hcall)
  | marked i =>
    obtain ⟨batch, hbatch, hstep⟩ := Option.bind_eq_some_iff.1 hstep
    obtain ⟨pid, hpid, hstep⟩ := Option.bind_eq_some_iff.1 hstep
    split at hstep
    · obtain ⟨call, hcall, hstep⟩ := Option.bind_eq_some_iff.1 hstep
      cases hstep
      exact h.onBatch i ((h.batches batch (List.mem_of_getElem? hbatch)).next hcall)
    · cases hstep
  | markFailed i =>
    obtain ⟨batch, hbatch, hstep⟩ := Option.bind_eq_some_iff.1 hstep
    obtain ⟨pid, hpid, hstep⟩ := Option.bind_eq_some_iff.1 hstep
    split at hstep
    · obtain ⟨call, hcall, hstep⟩ := Option.bind_eq_some_iff.1 hstep
      cases hstep
      exact h.onBatch i ((h.batches batch (List.mem_of_getElem? hbatch)).next hcall)
    · cases hstep
  | crash i =>
    obtain ⟨batch, hbatch, rfl⟩ := Option.map_eq_some_iff.1 hstep
    exact h.onBatch i ⟨fun _ hm ↦ (by cases hm), fun _ _ _ _ _ hwaits ↦ (by cases hwaits)⟩
  | signal k signal =>
    obtain ⟨parcel, hparcel, hstep⟩ := Option.bind_eq_some_iff.1 hstep
    obtain ⟨copies, hcopies, hstep⟩ := Option.bind_eq_some_iff.1 hstep
    split at hstep
    · rename_i hpermits
      cases hstep
      exact h.signal hwallets hparcel hcopies hpermits
    · cases hstep
  | handle k i pid inputs =>
    obtain ⟨c, hc, hstep⟩ := Option.bind_eq_some_iff.1 hstep
    obtain ⟨payload, hpayload, hstep⟩ := Option.bind_eq_some_iff.1 hstep
    split at hstep
    · exact h.handle hwallets hc hpayload hstep
    · cases hstep

/-- **Every state of the pipeline is accounted for.** -/
theorem accounted_of_reaches (hwallets : InitialWallets wallets)
    (h : Reaches env lossy consumerMaxRetries (initial wallets) P) : Accounted env wallets P := by
  induction h with
  | refl => exact accounted_initial
  | tail _ hstep ih =>
    obtain ⟨happening, hstep⟩ := hstep
    exact ih.step hwallets hstep

/-! ### Results -/

/-- **The consumer keeps the promise of the application.** In the pipeline an execution has whatever
payload a consumer has read, and this is always the payload of an outbox row: what the application
does in the pipeline is a run of the application alone. Every result about its runs holds in the
pipeline. -/
theorem app_reaches (hwallets : InitialWallets wallets)
    (h : Reaches env lossy consumerMaxRetries (initial wallets) P) :
    System.Reaches env (System.initial wallets) P.app :=
  (accounted_of_reaches hwallets h).reaches

/-- **No event is lost.** In every state of the pipeline:

* while a conversion waits to be executed, the row of its event is still to be published, or a
  message from which a consumer reads its payload is in the execution queue, with a consumer, or in
  the dead-letter queue;
* a row is marked as published only if the broker has got its publication;
* a message is acknowledged only when the conversion is settled, or when the broker has got a copy
  that was published later. -/
theorem no_event_lost (hwallets : InitialWallets wallets)
    (h : Reaches env lossy consumerMaxRetries (initial wallets) P) :
    (∀ c row, P.app.db.conversions.lookup c = some row → row.status.isTerminal = false →
      ∃ e o, row.exchangeExecutionId = some e ∧ P.app.db.outbox.lookup e = some o ∧
        o.payload.conversionId = c ∧
        (o.publishedAt = none ∨ ∃ parcel ∈ P.parcels, parcel.eventId = e ∧
          ∃ copy ∈ parcel.copies, copy.place.live = true ∧
            copy.message.content = bufferFrom o.payload.toJson.stringify)) ∧
    (∀ e o, P.app.db.outbox.lookup e = some o → o.publishedAt ≠ none → Arrived P.parcels e) ∧
    ∀ parcel ∈ P.parcels, ∀ i copy sake, parcel.copies[i]? = some copy → copy.place = .acked sake →
      (sake = none ∧ Settled parcel.payload P.app.db) ∨
        ∃ j, sake = some j ∧ i < j ∧ parcel.copies.stored j = true := by
  have haccounted := accounted_of_reaches hwallets h
  have hsound := sound_of_reaches hwallets haccounted.reaches
  refine ⟨fun c row hrow hopen ↦ ?_, haccounted.published,
    fun parcel hparcel i copy sake hcopy hplace ↦ ?_⟩
  swap
  · have hof := haccounted.parcels parcel hparcel
    cases sake with
    | none => exact .inl ⟨rfl, hof.settled copy (List.mem_of_getElem? hcopy) (by rw [hplace]; rfl)⟩
    | some j =>
      have hlead := hof.linked i copy hcopy
      rw [hplace] at hlead
      exact .inr ⟨j, rfl, hlead⟩
  obtain ⟨e, o, he, ho, hannounces⟩ := (hsound.inv.conversions c row hrow).event
  refine ⟨e, o, he, ho, hannounces.conversionId, ?_⟩
  by_cases hpublished : o.publishedAt = none
  · exact .inl hpublished
  right
  obtain ⟨k, parcel, hparcel, hid, hstored⟩ := haccounted.published e o ho hpublished
  have hmem := List.mem_of_getElem? hparcel
  have hof := haccounted.parcels parcel hmem
  obtain ⟨o', ho', hpayload⟩ := hof.carried
  rw [hid, ho, Option.some.injEq] at ho'
  subst ho'
  -- whoever has handled a message of the parcel has settled the conversion
  have hnot : ¬ parcel.copies.Succeeded := by
    rintro ⟨copy, hcopy, hacked⟩
    obtain ⟨row', hrow', hterminal⟩ := hof.settled copy hcopy (by rw [hacked]; rfl)
    rw [← hpayload, hannounces.conversionId, hrow, Option.some.injEq] at hrow'
    rw [← hrow', hopen] at hterminal
    cases hterminal
  obtain ⟨copy, hcopy, hlive⟩ := Copies.exists_live hof.linked hstored hnot
  refine ⟨parcel, hmem, hid, copy, hcopy, hlive, ?_⟩
  rw [(hof.copies copy hcopy).content, ← hpayload]
  rfl

/-! ### A run -/

/-- A schedule that can be followed is a run. -/
theorem reaches_of_steps {happenings : List Happening}
    (h : P.steps env lossy consumerMaxRetries happenings = some P') :
    Reaches env lossy consumerMaxRetries P P' := by
  induction happenings generalizing P with
  | nil =>
    cases h
    exact .refl
  | cons happening rest ih =>
    obtain ⟨P₁, hP₁, hrest⟩ := Option.bind_eq_some_iff.1 h
    exact .head ⟨happening, hP₁⟩ (ih hrest)

/-- The quote is accepted, its event is published and marked, and a consumer has got it. -/
def deliveredSchedule : List Happening :=
  [.request 1 sampleQuote, .run 1, .request 2 sampleAccept] ++ List.replicate 10 (.run 2) ++
    [.select 10 fun _ ↦ 0, .publish 0, .signal 0 (.store 0), .confirm 0 3 sampleTime, .run 3,
      .marked 0, .signal 0 (.deliver 0)]

/-- What an execution gets from its surroundings, with the exchange in a mode. -/
def sampleInputs (mode : ExecutionOutcome) : ExecuteInputs :=
  ⟨mode, sampleTime, sampleTime, .ofText "w-6"⟩

/-- The consumer executes the event, and acknowledges it. -/
def handledSchedule : List Happening :=
  deliveredSchedule ++ [.handle 0 0 4 (sampleInputs .SUCCESS)] ++ List.replicate 12 (.run 4) ++
    [.signal 0 (.resolve 0), .signal 0 (.ack 0)]

/-- A run in which the event is handled. -/
theorem app_reaches_sample : ∃ P : Pipeline,
    System.Reaches .reference (System.initial sampleWallets) P.app ∧
    (P.app.db.conversions.lookup "c-1").any (fun r ↦ decide (r.status = .COMPLETED)) = true := by
  have hrun : ((initial sampleWallets).steps .reference (fun _ ↦ "") ⟨3, by decide⟩
      handledSchedule).any (fun P ↦
        (P.app.db.conversions.lookup "c-1").any fun r ↦ decide (r.status = .COMPLETED)) = true := by
    decide +kernel
  obtain ⟨P, hP, hcompleted⟩ := (Option.any_eq_true _ _).1 hrun
  exact ⟨P, app_reaches (by decide +kernel) (reaches_of_steps hP), hcompleted⟩

/-- A run in which the row is marked, and the message is with the consumer. -/
theorem no_event_lost_sample : ∃ P : Pipeline,
    (P.app.db.outbox.lookup "e-1").any (fun o ↦ decide (o.publishedAt ≠ none)) = true ∧
    ∃ parcel ∈ P.parcels, parcel.eventId = "e-1" ∧
      ∃ copy ∈ parcel.copies, copy.place.live = true := by
  have hrun : ((initial sampleWallets).steps .reference (fun _ ↦ "") ⟨3, by decide⟩
      deliveredSchedule).any (fun P ↦
        (P.app.db.conversions.lookup "c-1").any (fun r ↦ decide (r.status.isTerminal = false ∧
          r.exchangeExecutionId = some "e-1")) ∧
        (P.app.db.outbox.lookup "e-1").any fun o ↦ decide (o.publishedAt ≠ none)) = true := by
    decide +kernel
  obtain ⟨P, hP, hstate⟩ := (Option.any_eq_true _ _).1 hrun
  obtain ⟨hconversion, houtbox⟩ := of_decide_eq_true hstate
  obtain ⟨row, hrow, hopen⟩ := (Option.any_eq_true _ _).1 hconversion
  obtain ⟨hopen, hevent⟩ := of_decide_eq_true hopen
  refine ⟨P, houtbox, ?_⟩
  obtain ⟨e, o, he, ho, -, hpublished⟩ :=
    (no_event_lost (by decide +kernel) (reaches_of_steps hP)).1 "c-1" row hrow hopen
  rw [hevent, Option.some.injEq] at he
  subst he
  obtain ⟨o', ho', hmarked⟩ := (Option.any_eq_true _ _).1 houtbox
  rw [ho, Option.some.injEq] at ho'
  subst ho'
  obtain ⟨parcel, hparcel, hid, copy, hcopy, hlive, -⟩ :=
    hpublished.resolve_left (of_decide_eq_true hmarked)
  exact ⟨parcel, hparcel, hid, copy, hcopy, hlive⟩

end Pipeline

end WalletConversion
