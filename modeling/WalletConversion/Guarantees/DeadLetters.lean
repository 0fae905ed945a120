import WalletConversion.Messaging.Delivery

/-!
# Bounded retries, then one dead letter

As long as publications are confirmed, acknowledgements succeed and the channel stays open, the
copies of a message form a chain (`Copies.Orderly`): each has made way for the next, and only the
last can still be handled. Copy `i` counts `i` retries more than the message did, which ends the
chain in the dead-letter queue. Weights that every signal increases by a fixed amount bound the
length of a run.

Without these assumptions there is no chain, but the links of `Copies.Linked` remain.
-/

namespace WalletConversion

open RabbitMqConnection

namespace Copies

variable {consumerMaxRetries : SafeNat} {m : Message} {copies copies' : Copies} {signal : Signal}
  {signals : List Signal} {i n : ℕ} {c : Copy} {place place' : Place}

/-! ### The chain of copies -/

/-- How many copies of the message may go back to its queue. -/
def retries (consumerMaxRetries : SafeNat) (m : Message) : ℕ := consumerMaxRetries.1 - retryCount m

/-- Copy `i` makes way for the next. -/
def Passed (copies : Copies) (i : ℕ) (place : Place) : Prop :=
  place = .delivered (.awaiting (i + 1)) ∨
    (place = .delivered (.confirmed (i + 1)) ∨ place = .acked (some (i + 1))) ∧
      copies.stored (i + 1) = true

/-- Copy `i` is the last one. The first `n` retries go to the queue, the next to the dead
letters. -/
def Tip (n i : ℕ) : Place → Prop
  | .inFlight routingKey => routingKey =
      if i ≤ n then CONVERSION_EXECUTION_ROUTING_KEY else
        CONVERSION_EXECUTION_DEAD_LETTER_ROUTING_KEY
  | .queued | .delivered .running | .delivered .succeeded | .delivered (.failed _)
  | .acked none => i ≤ n
  | .deadLettered => n < i
  | _ => False

/-- The copies of a message that was delivered once: each counts one retry more, all but the last
are done with, and the last is where it should be. -/
structure Orderly (consumerMaxRetries : SafeNat) (m : Message) (copies : Copies) : Prop where
  arrived : copies.stored 0 = true
  bounded : copies.length ≤ retries consumerMaxRetries m + 2
  counts : ∀ i c, copies[i]? = some c → i ≤ retries consumerMaxRetries m →
    retryCount c.message = retryCount m + i
  passed : ∀ i c, copies[i]? = some c → i + 1 < copies.length → copies.Passed i c.place
  last : ∀ i c, copies[i]? = some c → i + 1 = copies.length →
    Tip (retries consumerMaxRetries m) i c.place

/-- A message that has just been published has one copy. -/
theorem orderly_initial : Orderly consumerMaxRetries m (initial m) where
  arrived := rfl
  bounded := Nat.le_add_left 1 _
  counts := by
    rintro (_ | i) c hc -
    · cases hc
      rfl
    · cases hc
  passed := by
    rintro (_ | i) c hc hi
    · exact absurd hi (by simp [initial])
    · cases hc
  last := by
    rintro (_ | i) c hc -
    · cases hc
      exact Nat.zero_le _
    · cases hc

/-- A copy that has made way has done so for good. -/
theorem Passed.mono (h : copies.Passed i place)
    (hstored : ∀ j, copies.stored j = true → copies'.stored j = true) : copies'.Passed i place :=
  h.imp_right fun ⟨hplace, hnext⟩ ↦ ⟨hplace, hstored _ hnext⟩

/-- A copy that has made way stays so in a smooth step, and is no failed delivery. -/
theorem passed_of_next (h : copies.next signal place = some place') (hsmooth : signal.smooth = true)
    (hpassed : copies.Passed i place) :
    copies.Passed i place' ∧ ∀ errorCode, place ≠ .delivered (.failed errorCode) := by
  rcases hpassed with rfl | ⟨rfl | rfl, hnext⟩
  · cases signal <;> simp [next, Signal.smooth] at h hsmooth
    obtain ⟨hstored, rfl⟩ := h
    exact ⟨.inr ⟨.inl rfl, hstored⟩, fun _ ↦ by simp⟩
  · cases signal <;> simp [next, Signal.smooth] at h hsmooth
    subst h
    exact ⟨.inr ⟨.inr rfl, hnext⟩, fun _ ↦ by simp⟩
  · cases signal <;> simp [next] at h

/-- The last copy stays the last, unless its failure is handled. -/
theorem tip_of_next (h : copies.next signal place = some place') (hsmooth : signal.smooth = true)
    (htip : Tip n i place) :
    (Tip n i place' ∧ ∀ errorCode, place ≠ .delivered (.failed errorCode)) ∨
      ∃ k errorCode, signal = .republish k ∧ place = .delivered (.failed errorCode) ∧
        place' = .delivered (.awaiting copies.length) := by
  rcases place with routingKey | _ | _ | (_ | _ | errorCode | _ | _ | _) | _ | (_ | _)
  · cases signal <;> simp [next, Signal.smooth] at h hsmooth
    refine .inl ⟨?_, fun _ ↦ by simp⟩
    simp only [Tip] at htip
    subst htip
    split at h <;> cases h
    · assumption
    · exact Nat.lt_of_not_le ‹_›
  · exact htip.elim
  · cases signal <;> simp [next, Signal.smooth] at h hsmooth
    subst h
    exact .inl ⟨htip, fun _ ↦ by simp⟩
  · cases signal <;> simp [next, Signal.smooth] at h hsmooth <;> subst h <;>
      exact .inl ⟨htip, fun _ ↦ by simp⟩
  · cases signal <;> simp [next, Signal.smooth] at h hsmooth
    subst h
    exact .inl ⟨htip, fun _ ↦ by simp⟩
  · cases signal <;> simp [next, Signal.smooth] at h hsmooth
    exact .inr ⟨_, _, rfl, rfl, h.symm⟩
  · exact htip.elim
  · exact htip.elim
  · exact htip.elim
  · cases signal <;> simp [next] at h
  · cases signal <;> simp [next] at h
  · exact htip.elim

/-- One copy moves. -/
theorem Orderly.set (ho : Orderly consumerMaxRetries m copies) (hc : copies[i]? = some c)
    (hstored : ∀ j, copies.stored j = true →
      stored (copies.set i { c with place := place }) j = true)
    (hpassed : i + 1 < copies.length → copies.Passed i place)
    (hlast : i + 1 = copies.length → Tip (retries consumerMaxRetries m) i place) :
    Orderly consumerMaxRetries m (copies.set i { c with place := place }) := by
  have hi : i < copies.length := (List.getElem?_eq_some_iff.1 hc).1
  have hget : ∀ j d, (copies.set i { c with place := place })[j]? = some d →
      (j = i ∧ d = { c with place := place }) ∨ copies[j]? = some d := by
    intro j d hd
    by_cases he : i = j
    · subst he
      rw [List.getElem?_set_self hi, Option.some.injEq] at hd
      exact .inl ⟨rfl, hd.symm⟩
    · rw [List.getElem?_set_ne he] at hd
      exact .inr hd
  refine ⟨hstored _ ho.arrived, by rw [List.length_set]; exact ho.bounded, fun j d hd hj ↦ ?_,
    fun j d hd hj ↦ ?_, fun j d hd hj ↦ ?_⟩
  · rcases hget j d hd with ⟨rfl, rfl⟩ | hold
    · exact ho.counts j c hc hj
    · exact ho.counts j d hold hj
  · rw [List.length_set] at hj
    rcases hget j d hd with ⟨rfl, rfl⟩ | hold
    · exact (hpassed hj).mono hstored
    · exact (ho.passed j d hold hj).mono hstored
  · rw [List.length_set] at hj
    rcases hget j d hd with ⟨rfl, rfl⟩ | hold
    · exact hlast hj
    · exact ho.last j d hold hj

/-- The last copy makes way for a new one. -/
theorem Orderly.append (ho : Orderly consumerMaxRetries m copies) (hc : copies[i]? = some c)
    (hi : i + 1 = copies.length) {errorCode : String}
    (hfailed : c.place = .delivered (.failed errorCode)) :
    Orderly consumerMaxRetries m
      (copies.set i { c with place := .delivered (.awaiting copies.length) } ++
        published consumerMaxRetries (.republish i) c) := by
  have hstep : copies.step consumerMaxRetries (.republish i) =
      some (copies.set i { c with place := .delivered (.awaiting copies.length) } ++
        published consumerMaxRetries (.republish i) c) :=
    step_eq_some.2 ⟨c, _, hc, by rw [hfailed]; rfl, rfl⟩
  have hlength := length_of_republish hstep hc hfailed
  have hle : i ≤ retries consumerMaxRetries m := by
    have htip := ho.last i c hc hi
    rwa [hfailed] at htip
  have hcount : retryCount c.message = retryCount m + i := ho.counts i c hc hle
  have hretry : i < retries consumerMaxRetries m ↔ retryCount c.message < consumerMaxRetries.1 := by
    rw [hcount, retries] at *
    omega
  refine ⟨stored_of_step hstep ho.arrived, by rw [hlength]; omega, fun j d hd hj ↦ ?_,
    fun j d hd hj ↦ ?_, fun j d hd hj ↦ ?_⟩ <;>
  rcases getElem?_of_step hstep hd with ⟨hne, hold⟩ | ⟨c', place, rfl, hc', hplace, rfl⟩ |
    ⟨c', rfl, hc', hnew⟩
  · exact ho.counts j d hold hj
  · exact ho.counts _ c' hc' hj
  · -- one more than the copy that failed
    obtain rfl : c' = c := Option.some.inj (hc'.symm.trans hc)
    rw [published_of_failed hfailed, List.mem_singleton] at hnew
    subst hnew
    rw [(failurePublication_of_lt (hretry.1 (by omega))).2, hcount]
    omega
  · refine (ho.passed j d hold ?_).mono fun _ ↦ stored_of_step hstep
    have hlt : j < copies.length := (List.getElem?_eq_some_iff.1 hold).1
    have hne' : j ≠ i := hne
    omega
  · obtain rfl : c' = c := Option.some.inj (hc'.symm.trans hc)
    rw [hfailed] at hplace
    cases hplace
    exact .inl (by rw [hi])
  · rw [hlength] at hj
    omega
  · have hlt : j < copies.length := (List.getElem?_eq_some_iff.1 hold).1
    rw [hlength] at hj
    omega
  · rw [hlength] at hj
    omega
  · obtain rfl : c' = c := Option.some.inj (hc'.symm.trans hc)
    rw [published_of_failed hfailed, List.mem_singleton] at hnew
    subst hnew
    simp only [Tip]
    split
    · exact (failurePublication_of_lt (hretry.1 (by omega))).1
    · exact failurePublication_of_not_lt (mt hretry.2 (by omega))

/-- **Without failures of the broker every step keeps the chain.** -/
theorem Orderly.step (h : copies.step consumerMaxRetries signal = some copies')
    (hsmooth : signal.smooth = true) (ho : Orderly consumerMaxRetries m copies) :
    Orderly consumerMaxRetries m copies' := by
  have hstored : ∀ j, copies.stored j = true → copies'.stored j = true := fun _ ↦ stored_of_step h
  obtain ⟨c, place, hc, hplace, rfl⟩ := step_eq_some.1 h
  have hlt : signal.copy < copies.length := (List.getElem?_eq_some_iff.1 hc).1
  rcases Nat.lt_or_ge (signal.copy + 1) copies.length with hi | hi
  · obtain ⟨hpassed, hnot⟩ := passed_of_next hplace hsmooth (ho.passed _ c hc hi)
    rw [published_eq_nil fun _ errorCode _ ↦ hnot errorCode, List.append_nil] at hstored ⊢
    exact ho.set hc hstored (fun _ ↦ hpassed) fun hlast ↦ absurd hlast hi.ne
  · have hlast : signal.copy + 1 = copies.length := by omega
    rcases tip_of_next hplace hsmooth (ho.last _ c hc hlast) with
      ⟨htip, hnot⟩ | ⟨k, errorCode, rfl, hfailed, rfl⟩
    · rw [published_eq_nil fun _ errorCode _ ↦ hnot errorCode, List.append_nil] at hstored ⊢
      exact ho.set hc hstored (fun hi' ↦ absurd hi' hi.not_gt) fun _ ↦ htip
    · exact ho.append hc hlast hfailed

/-- In smooth runs the copies follow one another. -/
theorem orderly_of_run (h : (initial m).run consumerMaxRetries signals = some copies)
    (hsmooth : ∀ signal ∈ signals, signal.smooth = true) : Orderly consumerMaxRetries m copies :=
  run_induction (fun _ _ signal hsignal hstep ho ↦ ho.step hstep (hsmooth signal hsignal)) h
    orderly_initial

/-- Those that have made way, and the last. -/
theorem Orderly.exists_tip (ho : Orderly consumerMaxRetries m copies) : ∃ init tip,
    copies = init ++ [tip] ∧ (∀ i c, init[i]? = some c → copies.Passed i c.place) ∧
      Tip (retries consumerMaxRetries m) init.length tip.place := by
  obtain ⟨c, hc, -⟩ := (Option.any_eq_true _ _).1 ho.arrived
  obtain rfl | ⟨init, tip, rfl⟩ := List.eq_nil_or_concat copies
  · cases hc
  rw [List.concat_eq_append] at ho ⊢
  have hlength : (init ++ [tip]).length = init.length + 1 := List.length_append
  refine ⟨init, tip, rfl, fun i d hd ↦ ?_, ho.last _ tip List.getElem?_concat_length hlength.symm⟩
  have hi : i < init.length := (List.getElem?_eq_some_iff.1 hd).1
  exact ho.passed i d (by rwa [List.getElem?_append_left hi]) (by omega)

/-! ### Weights -/

/-- How many signals have brought a copy to its place. -/
def age : Place → ℕ
  | .inFlight _ | .lost => 0
  | .queued | .deadLettered => 1
  | .delivered .running | .delivered .refused => 2
  | .delivered .succeeded | .delivered (.failed _) => 3
  | .delivered (.awaiting _) | .acked none => 4
  | .delivered (.confirmed _) => 5
  | .acked (some _) => 6

/-- How often the handler was run on a copy. -/
def handled : Place → ℕ
  | .delivered _ | .acked _ => 1
  | _ => 0

/-- A copy takes at most six steps. -/
theorem age_le (place : Place) : age place ≤ 6 := by
  unfold age
  split <;> decide

/-- Every smooth step takes a copy one step further. -/
theorem age_of_next (h : copies.next signal place = some place') (hsmooth : signal.smooth = true) :
    age place' = age place + 1 := by
  unfold next at h
  split at h
  case h_5 routingKey =>
    obtain ⟨queue, -, rfl⟩ := Option.map_eq_some_iff.1 h
    cases queue <;> rfl
  case h_7 j =>
    split at h <;> cases h
    rfl
  all_goals first
    | (cases h; rfl)
    | cases hsmooth
    | cases h

/-- A copy is handled in the steps that run its handler. -/
theorem handled_of_next (h : copies.next signal place = some place')
    (hsmooth : signal.smooth = true) :
    handled place' = handled place + if signal.runs = true then 1 else 0 := by
  unfold next at h
  split at h
  case h_5 routingKey =>
    obtain ⟨queue, -, rfl⟩ := Option.map_eq_some_iff.1 h
    cases queue <;> rfl
  case h_7 j =>
    split at h <;> cases h
    rfl
  all_goals first
    | (cases h; rfl)
    | cases hsmooth
    | cases h

/-- The weight of all copies together. -/
def total (weight : Place → ℕ) (copies : Copies) : ℕ := (copies.map fun c ↦ weight c.place).sum

variable {weight : Place → ℕ} {gain : Signal → ℕ}

/-- Moving one copy changes its own part of the total. -/
theorem total_set (weight : Place → ℕ) (place : Place) (hc : copies[i]? = some c) :
    total weight (copies.set i { c with place := place }) + weight c.place =
      total weight copies + weight place := by
  induction copies generalizing i with
  | nil => cases hc
  | cons d copies ih =>
    cases i with
    | zero =>
      cases hc
      simp only [total, List.set_cons_zero, List.map_cons, List.sum_cons]
      omega
    | succ i =>
      have hrest := ih (i := i) hc
      simp only [total, List.set_cons_succ, List.map_cons, List.sum_cons] at hrest ⊢
      omega

/-- Weights that every signal increases by its gain measure how many there were. -/
theorem total_of_run (hnew : ∀ routingKey, weight (.inFlight routingKey) = 0)
    (hnext : ∀ {copies : Copies} {signal place place'}, copies.next signal place = some place' →
      signal.smooth = true → weight place' = weight place + gain signal)
    (h : copies.run consumerMaxRetries signals = some copies')
    (hsmooth : ∀ signal ∈ signals, signal.smooth = true) :
    copies'.total weight = copies.total weight + (signals.map gain).sum := by
  induction signals generalizing copies with
  | nil =>
    cases h
    rfl
  | cons signal signals ih =>
    obtain ⟨copies₁, h₁, hrest⟩ := Option.bind_eq_some_iff.1 h
    rw [ih hrest fun s hs ↦ hsmooth s (List.mem_cons_of_mem _ hs)]
    obtain ⟨c, place, hc, hplace, rfl⟩ := step_eq_some.1 h₁
    have hgain := hnext hplace (hsmooth signal List.mem_cons_self)
    have hset := total_set weight place hc
    have hpublished : total weight (published consumerMaxRetries signal c) = 0 := by
      rw [total, List.sum_eq_zero_iff]
      intro w hw
      obtain ⟨d, hd, rfl⟩ := List.mem_map.1 hw
      obtain ⟨routingKey, hplace⟩ := (published_inFlight hd).1
      rw [hplace, hnew]
    have happend : total weight (copies.set signal.copy { c with place := place } ++
        published consumerMaxRetries signal c) =
        total weight (copies.set signal.copy { c with place := place }) := by
      rw [total, List.map_append, List.sum_append]
      exact (congrArg _ hpublished).trans (Nat.add_zero _)
    rw [happend, List.map_cons, List.sum_cons]
    omega

theorem sum_map_runs (signals : List Signal) :
    (signals.map fun signal ↦ if signal.runs = true then 1 else 0).sum =
      signals.countP Signal.runs := by
  induction signals with
  | nil => rfl
  | cons signal signals ih => rw [List.map_cons, List.sum_cons, ih, List.countP_cons, Nat.add_comm]

/-- The total is bounded by the number of copies. -/
theorem total_le {k : ℕ} (h : ∀ c ∈ copies, weight c.place ≤ k) :
    copies.total weight ≤ copies.length * k := by
  have hsum := List.sum_le_card_nsmul (copies.map fun c ↦ weight c.place) k (by simpa using h)
  simpa [total] using hsum

/-- No run is longer than the chain allows. -/
theorem Orderly.total_age_le (ho : Orderly consumerMaxRetries m copies) :
    copies.total age ≤ 6 * (retries consumerMaxRetries m + 2) := by
  have hage := total_le fun c (_ : c ∈ copies) ↦ age_le c.place
  have hlength := ho.bounded
  omega

/-- The handler runs on copies of the queue only. -/
theorem Orderly.total_handled_le (ho : Orderly consumerMaxRetries m copies) :
    copies.total handled ≤ retries consumerMaxRetries m + 1 := by
  have hle : ∀ place, handled place ≤ 1 := by
    intro place
    unfold handled
    split <;> decide
  have hbounded := ho.bounded
  obtain ⟨init, tip, rfl, -, htip⟩ := ho.exists_tip
  have htotal : total handled (init ++ [tip]) = total handled init + handled tip.place := by
    simp [total]
  have hinit := total_le fun c (_ : c ∈ init) ↦ hle c.place
  rw [List.length_append, List.length_singleton] at hbounded
  rcases Nat.lt_or_ge (retries consumerMaxRetries m) init.length with hlt | hge
  · -- the last of so many copies is a dead letter
    have hdead : handled tip.place = 0 := by
      rcases hplace : tip.place with _ | _ | _ | (_ | _ | _ | _ | _ | _) | _ | (_ | _) <;>
        rw [hplace] at htip <;> first
        | rfl
        | exact absurd htip hlt.not_ge
        | exact htip.elim
    omega
  · have htip' := hle tip.place
    omega

/-! ### The last copy -/

theorem Passed.stored (h : copies.Passed i place) : place.stored = true := by
  rcases h with rfl | ⟨rfl | rfl, -⟩ <;> rfl

/-- Whatever has been stored, unless its handler has succeeded, is alive or has made way. -/
theorem Tip.live (h : Tip n i place) (hstored : place.stored = true)
    (hnot : place ≠ .acked none) : place.live = true := by
  rcases place with _ | _ | _ | _ | _ | (_ | _)
  · cases hstored
  · cases hstored
  · rfl
  · rfl
  · rfl
  · exact absurd rfl hnot
  · exact h.elim

/-- As long as no failure is being handled, each copy but the last is deleted, and the last
stored. -/
theorem Orderly.countP_live (ho : Orderly consumerMaxRetries m copies)
    (hnot : ∀ c ∈ copies, c.place.failing = false) (hsucceeded : ¬ copies.Succeeded) :
    copies.countP (fun c ↦ c.place.live) = 1 := by
  have harrived := ho.arrived
  obtain ⟨init, tip, rfl, hpassed, htip⟩ := ho.exists_tip
  have hgone : ∀ i c, init[i]? = some c → c.place = .acked (some (i + 1)) ∧
      stored (init ++ [tip]) (i + 1) = true := by
    intro i c hc
    have hfailing := hnot c (List.mem_append_left _ (List.mem_of_getElem? hc))
    rcases hpassed i c hc with hplace | ⟨hplace | hplace, hstored⟩
    · rw [hplace] at hfailing
      cases hfailing
    · rw [hplace] at hfailing
      cases hfailing
    · exact ⟨hplace, hstored⟩
  have hinit : init.countP (fun c ↦ c.place.live) = 0 := by
    rw [List.countP_eq_zero]
    intro c hc
    obtain ⟨i, hi⟩ := List.mem_iff_getElem?.1 hc
    rw [(hgone i c hi).1]
    exact Bool.false_ne_true
  have hstored : tip.place.stored = true := by
    have hlast : stored (init ++ [tip]) init.length = true := by
      rcases hlength : init.length with _ | i
      · exact harrived
      · exact (hgone i _ (List.getElem?_eq_getElem (by omega))).2
    rwa [stored, List.getElem?_concat_length] at hlast
  have hlive := htip.live hstored fun hplace ↦
    hsucceeded ⟨tip, List.mem_append_right _ List.mem_cons_self, hplace⟩
  rw [List.countP_append, hinit, List.countP_singleton, if_pos hlive]

theorem next_eq_none (h : copies.step consumerMaxRetries signal = none)
    (hc : copies[signal.copy]? = some c) : copies.next signal c.place = none := by
  simpa [step, hc] using h

/-- When nothing can happen any more, the last copy is a dead letter and the others are deleted. -/
theorem Orderly.of_stuck (ho : Orderly consumerMaxRetries m copies)
    (hstuck : ∀ signal : Signal, signal.smooth = true →
      copies.step consumerMaxRetries signal = none) (hsucceeded : ¬ copies.Succeeded) :
    (∀ c ∈ copies, c.place.failing = false) ∧
      copies.countP (fun c ↦ c.place = .deadLettered) = 1 := by
  have hnext : ∀ {i c}, copies[i]? = some c → ∀ signal : Signal, signal.smooth = true →
      signal.copy = i → copies.next signal c.place = none := by
    rintro _ c hc signal hsmooth rfl
    exact next_eq_none (hstuck signal hsmooth) hc
  obtain ⟨init, tip, rfl, hpassed, htip⟩ := ho.exists_tip
  -- every other place of the last copy has a signal
  have hdead : tip.place = .deadLettered := by
    have htipNext := hnext (List.getElem?_concat_length : (init ++ [tip])[init.length]? = some tip)
    rcases hplace : tip.place with routingKey | _ | _ |
      (_ | _ | errorCode | _ | _ | _) | _ | (_ | _)
      <;> rw [hplace] at htip htipNext
    · have hstore := htipNext (.store init.length) rfl rfl
      simp only [Tip] at htip
      subst htip
      split at hstore <;> cases hstore
    · exact htip.elim
    · cases htipNext (.deliver init.length) rfl rfl
    · cases htipNext (.resolve init.length) rfl rfl
    · cases htipNext (.ack init.length) rfl rfl
    · cases htipNext (.republish init.length) rfl rfl
    · exact htip.elim
    · exact htip.elim
    · exact htip.elim
    · exact absurd ⟨tip, List.mem_append_right _ List.mem_cons_self, hplace⟩ hsucceeded
    · exact htip.elim
  -- a copy before it would be confirmed and acknowledged
  have hgone : ∀ c ∈ init, ∃ j, c.place = .acked (some j) := by
    intro c hc
    obtain ⟨i, hi⟩ := List.mem_iff_getElem?.1 hc
    have hlt : i < init.length := (List.getElem?_eq_some_iff.1 hi).1
    have hcNext := hnext (i := i) (c := c) (by rwa [List.getElem?_append_left hlt])
    have hstored : stored (init ++ [tip]) (i + 1) = true := by
      rcases Nat.lt_or_ge (i + 1) init.length with hlt' | hge
      · have hget : init[i + 1]? = some init[i + 1] := List.getElem?_eq_getElem hlt'
        rw [stored, List.getElem?_append_left hlt', hget]
        exact (hpassed _ _ hget).stored
      · obtain he : i + 1 = init.length := by omega
        rw [stored, he, List.getElem?_concat_length, Option.any_some, hdead]
        rfl
    rcases hpassed i c hi with hplace | ⟨hplace | hplace, -⟩ <;> rw [hplace] at hcNext ⊢
    · have hconfirm := hcNext (.confirm i) rfl rfl
      simp [next, hstored] at hconfirm
    · cases hcNext (.ack i) rfl rfl
    · exact ⟨_, rfl⟩
  constructor
  · intro c hc
    rcases List.mem_append.1 hc with hc | hc
    · obtain ⟨j, hplace⟩ := hgone c hc
      rw [hplace]
      rfl
    · rw [List.mem_singleton.1 hc, hdead]
      rfl
  · have hinit : init.countP (fun c ↦ c.place = .deadLettered) = 0 := by
      rw [List.countP_eq_zero]
      intro c hc
      obtain ⟨j, hplace⟩ := hgone c hc
      simp [hplace]
    rw [List.countP_append, hinit, List.countP_singleton, if_pos (by simpa using hdead)]

/-! ### Runs -/

/-- Every copy is one of the message. -/
theorem copyOf_of_run (h : (initial m).run consumerMaxRetries signals = some copies) :
    ∀ c ∈ copies, c.message.CopyOf m :=
  run_induction (P := fun copies ↦ ∀ c ∈ copies, c.message.CopyOf m)
    (fun _ _ _ _ hstep ↦ copyOf_of_step hstep) h
    fun _ hc ↦ by rw [List.mem_singleton.1 hc]; exact .refl m

/-- What the places tell of other copies is right, and the message has reached its queue. -/
theorem linked_of_run (h : (initial m).run consumerMaxRetries signals = some copies) :
    copies.Linked ∧ copies.stored 0 = true := by
  refine run_induction (P := fun copies ↦ copies.Linked ∧ copies.stored 0 = true)
    (fun _ _ _ _ hstep ↦ And.imp (linked_of_step hstep) (stored_of_step hstep)) h ⟨?_, rfl⟩
  rintro (_ | i) c hc
  · cases hc
    trivial
  · cases hc

/-- Where no handler succeeds no copy is acknowledged for one. -/
theorem not_succeeded_of_next (h : copies.next signal place = some place')
    (hnot : signal.succeeds = false) (hplace : place ≠ .delivered .succeeded) :
    place' ≠ .delivered .succeeded ∧ place' ≠ .acked none := by
  unfold next at h
  split at h
  case h_2 => cases hnot
  case h_5 routingKey =>
    obtain ⟨queue, -, rfl⟩ := Option.map_eq_some_iff.1 h
    cases queue <;> exact ⟨by simp, by simp⟩
  case h_7 j =>
    split at h <;> cases h
    exact ⟨by simp, by simp⟩
  case h_10 => exact absurd rfl hplace
  all_goals first
    | (cases h; exact ⟨by simp, by simp⟩)
    | cases h

/-- Only a handler that succeeds ends a message for good. -/
theorem not_succeeded_of_run (h : (initial m).run consumerMaxRetries signals = some copies)
    (hnot : ∀ signal ∈ signals, signal.succeeds = false) : ¬ copies.Succeeded := by
  have hplace : ∀ c ∈ copies, c.place ≠ .delivered .succeeded ∧ c.place ≠ .acked none := by
    refine run_induction (P := fun copies ↦ ∀ c ∈ copies, c.place ≠ .delivered .succeeded ∧
      c.place ≠ .acked none) (fun copies copies' signal hsignal hstep hcopies d hd ↦ ?_) h ?_
    · obtain ⟨i, hi⟩ := List.mem_iff_getElem?.1 hd
      rcases getElem?_of_step hstep hi with
        ⟨-, hold⟩ | ⟨c, place, -, hc, hplace, rfl⟩ | ⟨c, -, -, hnew⟩
      · exact hcopies d (List.mem_of_getElem? hold)
      · exact not_succeeded_of_next hplace (hnot signal hsignal)
          (hcopies c (List.mem_of_getElem? hc)).1
      · obtain ⟨routingKey, hplace⟩ := (published_inFlight hnew).1
        simp [hplace]
    · intro c hc
      rw [List.mem_singleton.1 hc]
      simp
  rintro ⟨c, hc, hc'⟩
  exact (hplace c hc).2 hc'

end Copies

open Copies

/-- **Bounded retries, then exactly one dead letter.** A message arrives with any body and any
headers, and its copies go through any signals. Each copy has the body, the identity and the headers
of the message, but for the bookkeeping, and one of them is alive until a handler succeeds. If no
publication, no acknowledgement and no channel fails, then
* the handler runs at most once more than there are retries left, and the run ends,
* until the handler succeeds exactly one copy is alive whenever no failure is being handled,
* if the handler never succeeds exactly one copy is a dead letter at the end, and no other is
alive. -/
theorem bounded_retries {consumerMaxRetries : SafeNat} {m : Message} {signals : List Signal}
    {copies : Copies} (h : (initial m).run consumerMaxRetries signals = some copies) :
    (∀ c ∈ copies, c.message.CopyOf m) ∧
    ((∀ signal ∈ signals, signal.succeeds = false) → ∃ c ∈ copies, c.place.live = true) ∧
    ((∀ signal ∈ signals, signal.smooth = true) →
      signals.countP Signal.runs ≤ consumerMaxRetries.1 - retryCount m + 1 ∧
      signals.length < 6 * (consumerMaxRetries.1 - retryCount m + 2) ∧
      ((∀ signal ∈ signals, signal.succeeds = false) →
        ((∀ c ∈ copies, c.place.failing = false) → copies.countP (fun c ↦ c.place.live) = 1) ∧
        ((∀ signal : Signal, signal.smooth = true →
            copies.step consumerMaxRetries signal = none) →
          copies.countP (fun c ↦ c.place = .deadLettered) = 1 ∧
          copies.countP (fun c ↦ c.place.live) = 1))) := by
  obtain ⟨hlinked, harrived⟩ := linked_of_run h
  refine ⟨copyOf_of_run h, fun hnot ↦ exists_live hlinked harrived (not_succeeded_of_run h hnot),
    fun hsmooth ↦ ?_⟩
  have ho := orderly_of_run h hsmooth
  refine ⟨?_, ?_, fun hnot ↦ ?_⟩
  · have htotal := total_of_run (fun _ ↦ rfl) handled_of_next h hsmooth
    have hle := ho.total_handled_le
    have hzero : total handled (initial m) = 0 := rfl
    rw [hzero, sum_map_runs] at htotal
    rw [retries] at hle
    omega
  · have htotal : copies.total age = total age (initial m) + (signals.map fun _ ↦ 1).sum :=
      total_of_run (fun _ ↦ rfl) age_of_next h hsmooth
    have hle := ho.total_age_le
    have hone : total age (initial m) = 1 := rfl
    rw [hone, List.map_const', List.sum_replicate_nat, Nat.mul_one] at htotal
    rw [retries] at hle
    omega
  · have hsucceeded := not_succeeded_of_run h hnot
    refine ⟨fun hfailing ↦ ho.countP_live hfailing hsucceeded, fun hstuck ↦ ?_⟩
    obtain ⟨hfailing, hdead⟩ := ho.of_stuck hstuck hsucceeded
    exact ⟨hdead, ho.countP_live hfailing hsucceeded⟩

/-- A message that nobody can handle, and one retry. -/
def sampleSignals : List Signal :=
  [.deliver 0, .reject 0 "Error", .republish 0, .store 1, .confirm 0, .ack 0,
    .deliver 1, .reject 1 "Error", .republish 1, .store 2, .confirm 1, .ack 1]

/-- A message whose retry count is a text, and so counts for nothing. -/
def sampleMessage : Message where
  content := [123, 125]
  messageId := some (.string "7f1f1b4e-5a0c-4a54-8f5c-0d3a3c9a6a01")
  correlationId := none
  headers := some (Finmap.singleton "x-retry-count" (.string "7"))

theorem bounded_retries_sample : ∃ copies,
    (initial sampleMessage).run ⟨1, by decide⟩ sampleSignals = some copies ∧
      copies.countP (fun c ↦ c.place.live) = 1 := by
  have hrun : ((initial sampleMessage).run ⟨1, by decide⟩ sampleSignals).any
      (fun copies ↦ copies.all fun c ↦ !c.place.failing) = true := by decide +kernel
  obtain ⟨copies, h, hfailing⟩ := (Option.any_eq_true _ _).1 hrun
  have hsmooth := (bounded_retries h).2.2 (by decide)
  refine ⟨copies, h, (hsmooth.2.2 (by decide)).1 fun c hc ↦ ?_⟩
  simpa using List.all_eq_true.1 hfailing c hc

end WalletConversion
