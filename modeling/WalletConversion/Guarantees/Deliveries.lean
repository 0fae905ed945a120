import WalletConversion.Guarantees.EndToEnd
import WalletConversion.Guarantees.Recovery

/-!
# What a consumer makes of a delivery

A message is written by the publisher as JSON, read by the consumer, and published again with every
retry and on its way to the dead-letter queue. In every state of the pipeline:

* `event_survives` — whatever has happened to a message, it is read as the payload of the outbox row
  it was made for, and has the id of this row;
* `delivery_settles` — an undisturbed execution of what is read settles the conversion, so the use
  case itself gives a message no reason to be dead-lettered.
-/

namespace WalletConversion

open Transactional RabbitMqConnection

namespace Pipeline

open Ledger ExecutionConsumerService

variable {env : Platform} {lossy : List UInt8 → String} {consumerMaxRetries : SafeNat}
  {wallets : Table (String × String) WalletRow} {P : Pipeline} {parcel : Parcel} {copy : Copy}
  {inputs : ExecuteInputs}

/-- **Every event has an id.** -/
theorem eventId_ne_empty (hwallets : InitialWallets wallets)
    (h : Reaches env lossy consumerMaxRetries (initial wallets) P) {e : String} {o : OutboxRow}
    (ho : P.app.db.outbox.lookup e = some o) : e ≠ "" := by
  have hrun := (accounted_of_reaches hwallets h).reaches
  have hsound := sound_of_reaches hwallets (Relation.ReflTransGen.refl : System.Reaches env _ _)
  have hkept : ∀ e o, P.app.db.outbox.lookup e = some o → e ≠ "" := by
    refine hsound.keeps (P := fun db ↦ ∀ e o, db.outbox.lookup e = some o → e ≠ "") ?_ hrun ?_
    · intro t a b _ hcommit hids e o ho
      cases hcommit with
      | @accepted command inputs =>
        rcases Table.lookup_insert_cases ho with ⟨rfl, -⟩ | ⟨-, hold⟩
        · exact inputs.eventId.nonempty
        · exact hids e o hold
      | published lookup =>
        rcases Table.lookup_insert_cases ho with ⟨rfl, -⟩ | ⟨-, hold⟩
        · exact hids _ _ lookup
        · exact hids e o hold
      | _ => exact hids e o ho
    · intro e o ho
      cases ho
  exact hkept e o ho

/-- A parcel is made of a row of the outbox, and its messages are read as the payload of this
row. -/
theorem Accounted.read (hwallets : InitialWallets wallets) (haccounted : Accounted env wallets P)
    (hids : ∀ e o, P.app.db.outbox.lookup e = some o → e ≠ "") (hparcel : parcel ∈ P.parcels) :
    ∃ row, P.app.db.outbox.lookup parcel.eventId = some row ∧ row.payload = parcel.payload ∧
      ∀ copy ∈ parcel.copies, stringOf copy.message.messageId = some parcel.eventId ∧
        received lossy copy.message.content = some row.payload := by
  have hsound := sound_of_reaches hwallets haccounted.reaches
  have hof := haccounted.parcels parcel hparcel
  obtain ⟨row, hrow, hpayload⟩ := hof.carried
  obtain ⟨r, hr, he⟩ := hsound.inv.outbox _ row hrow
  obtain ⟨e, o, he', ho, hannounces⟩ := (hsound.inv.conversions _ r hr).event
  obtain rfl : parcel.eventId = e := Option.some.inj (he.symm.trans he')
  obtain rfl : row = o := Option.some.inj (hrow.symm.trans ho)
  have hid : row.payload.eventId ≠ "" := hannounces.payloadEventId ▸ hids _ row hrow
  refine ⟨row, hrow, hpayload, fun copy hcopy ↦ ⟨?_, ?_⟩⟩
  · rw [(hof.copies copy hcopy).messageId, ← hpayload, ← hannounces.payloadEventId]
    rfl
  · rw [received_of_copyOf lossy (hof.copies copy hcopy), ← hpayload]
    exact received_publication lossy _ hannounces.payloadEventType hid

/-- **What is read is what was stored.** Every message of a row of the outbox, the first one and
every copy that was published of it, has the id of the row and is read as its payload. -/
theorem event_survives (hwallets : InitialWallets wallets)
    (h : Reaches env lossy consumerMaxRetries (initial wallets) P) :
    ∀ parcel ∈ P.parcels, ∃ row, P.app.db.outbox.lookup parcel.eventId = some row ∧
      ∀ copy ∈ parcel.copies, stringOf copy.message.messageId = some parcel.eventId ∧
        received lossy copy.message.content = some row.payload := by
  intro parcel hparcel
  obtain ⟨row, hrow, -, hread⟩ := (accounted_of_reaches hwallets h).read hwallets
    (fun _ _ ho ↦ eventId_ne_empty hwallets h ho) hparcel
  exact ⟨row, hrow, hread⟩

/-- **A delivery settles.** Whatever was done about a message before, an undisturbed execution of
what is read from it returns, and its conversion is settled then. -/
theorem delivery_settles (hwallets : InitialWallets wallets)
    (hreadable : ReadableWallets env wallets)
    (h : Reaches env lossy consumerMaxRetries (initial wallets) P) (hparcel : parcel ∈ P.parcels)
    (hcopy : copy ∈ parcel.copies)
    (hfresh : ∀ key row, P.app.db.wallets.lookup key = some row → row.id ≠ inputs.walletId.value)
    (hfits : CreditFits parcel.payload P.app.db) :
    ∃ payload report db', received lossy copy.message.content = some payload ∧
      (ProcessConversionExecutionUseCase.execute env payload inputs).solo postgres none P.app.db =
        (.returned report, db') ∧ Settled payload db' := by
  have haccounted := accounted_of_reaches hwallets h
  obtain ⟨row, hrow, hpayload, hread⟩ := haccounted.read hwallets
    (fun _ _ ho ↦ eventId_ne_empty hwallets h ho) hparcel
  obtain ⟨report, db', r, x, hsolo, hr, -, hstatus, -⟩ :=
    (sound_of_reaches hwallets haccounted.reaches).inv.recovers hreadable hrow hfresh
      (hpayload ▸ hfits)
  exact ⟨row.payload, report, db', (hread copy hcopy).2, hsolo, r, hr,
    by rw [hstatus, statusOf_isTerminal]⟩

/-! ### A run -/

/-- The exchange refuses the order, the worker is cut off, and the consumer publishes the message
again. -/
def retriedSchedule : List Happening :=
  deliveredSchedule ++ [.handle 0 0 4 (sampleInputs .FAILURE)] ++
    List.replicate 3 (.run 4) ++
    [.fail 4, .signal 0 (.reject 0 "P2024"), .signal 0 (.republish 0), .signal 0 (.store 1)]

/-- The state that this leads to: the message and its copy, and no wallet in BTC. -/
theorem exists_retried : ∃ P : Pipeline,
    Reaches .reference (fun _ ↦ "") ⟨3, by decide⟩ (initial sampleWallets) P ∧
    (∃ parcel ∈ P.parcels, parcel.copies.length = 2 ∧ parcel.payload = samplePayload) ∧
    P.app.db.wallets.lookup ("u-1", "BTC") = none ∧
    (P.app.db.conversions.lookup "c-1").any (fun r ↦
      decide ((r.userId, r.targetAsset) = ("u-1", "BTC"))) = true ∧
    (Task.execute samplePayload ⟨.SUCCESS, sampleTime, sampleTime, .ofText "w-3"⟩).Fresh
      P.app.db := by
  have hrun : ((initial sampleWallets).steps .reference (fun _ ↦ "") ⟨3, by decide⟩
      retriedSchedule).any (fun P ↦
        (∃ parcel ∈ P.parcels, parcel.copies.length = 2 ∧ parcel.payload = samplePayload) ∧
        P.app.db.wallets.lookup ("u-1", "BTC") = none ∧
        (P.app.db.conversions.lookup "c-1").any (fun r ↦
          decide ((r.userId, r.targetAsset) = ("u-1", "BTC"))) = true ∧
        (Task.execute samplePayload ⟨.SUCCESS, sampleTime, sampleTime, .ofText "w-3"⟩).Fresh
          P.app.db) = true := by
    decide +kernel
  obtain ⟨P, hP, hstate⟩ := (Option.any_eq_true _ _).1 hrun
  exact ⟨P, reaches_of_steps hP, of_decide_eq_true hstate⟩

/-- The message and its copy are read as the event. -/
theorem event_survives_sample : ∃ P : Pipeline, ∃ parcel ∈ P.parcels, parcel.copies.length = 2 ∧
    ∃ row, P.app.db.outbox.lookup parcel.eventId = some row ∧
      ∀ copy ∈ parcel.copies, stringOf copy.message.messageId = some parcel.eventId ∧
        received (fun _ ↦ "") copy.message.content = some row.payload := by
  obtain ⟨P, hreaches, ⟨parcel, hparcel, hlength, -⟩, -⟩ := exists_retried
  exact ⟨P, parcel, hparcel, hlength,
    event_survives (by decide +kernel) hreaches parcel hparcel⟩

/-- The copy is executed. -/
theorem delivery_settles_sample : ∃ (P : Pipeline) (payload : ConversionExecutionRequestedPayload)
    (report : ExecutionReport) (db' : Db),
    (ProcessConversionExecutionUseCase.execute .reference payload
      ⟨.SUCCESS, sampleTime, sampleTime, .ofText "w-3"⟩).solo postgres none P.app.db =
      (.returned report, db') ∧ Settled payload db' := by
  obtain ⟨P, hreaches, ⟨parcel, hparcel, hlength, hpayload⟩, hwallet, hrow, hfresh⟩ :=
    exists_retried
  obtain ⟨copy, hcopy⟩ := List.exists_mem_of_length_pos (by rw [hlength]; decide)
  obtain ⟨r₀, hr₀, hkey⟩ := (Option.any_eq_true _ _).1 hrow
  have hfits : CreditFits parcel.payload P.app.db := fun row w hrow _ hw ↦ by
    rw [hpayload] at hrow
    have heq : r₀ = row := Option.some.inj (hr₀.symm.trans hrow)
    rw [← heq, of_decide_eq_true hkey, hwallet] at hw
    cases hw
  obtain ⟨payload, report, db', -, hsolo, hsettled⟩ := delivery_settles (by decide +kernel)
    readable_sampleWallets hreaches hparcel hcopy hfresh hfits
  exact ⟨P, payload, report, db', hsolo, hsettled⟩

end Pipeline

end WalletConversion
