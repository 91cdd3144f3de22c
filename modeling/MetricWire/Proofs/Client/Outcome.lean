import MetricWire.Proofs.Client.Effect

/-!
How calls end.

A call of an active client can go wrong in two ways. The value may not fit, and then nothing else is looked at; or
the packet is handed to the sink and the sink fails. `Kind.Takes` and `Measurement.IsInvalid` say what fits, as a
table, and `Family.EmitFails` when it comes to an emit that fails.

  1. `Kind.fault?_eq_none_iff` — the check of a value is the table.
  2. `Reporter.record_of_invalid`, `Hub.pass_result_error_iff` — the two ways.
  3. `Family.step_record_ending`, `Family.step_closing_error_iff` — one call, one close or one flush.
  4. `endings` — all actions on the members of a family.
-/

namespace MetricWire

/-- The values that a kind takes: texts are for sets and raw metrics, whole numbers for all but raw metrics, and
finite floats for all but raw metrics and counters. -/
def Kind.Takes (k : Kind) : Value → Prop
  | .text _ => k = .set ∨ k = .raw
  | .int _ => k ≠ .raw
  | .float v => v.isFinite = true ∧ k ≠ .raw ∧ k ≠ .counter

/-- The measurement asks for the negation of the least integer, or its kind does not take its value. -/
def Measurement.IsInvalid (m : Measurement) : Prop :=
  m = .decrement Int64.minValue ∨ ∃ kind value, m.observation = .ok (kind, value) ∧ ¬ kind.Takes value

theorem Kind.fault?_eq_none_iff (k : Kind) (v : Value) : k.fault? v = none ↔ k.Takes v := by
  cases k <;> cases v <;> simp [fault?, Takes]

instance (k : Kind) (v : Value) : Decidable (k.Takes v) := decidable_of_iff _ (Kind.fault?_eq_none_iff k v)

theorem Measurement.observation_error {m : Measurement} {fault : ValueFault} (h : m.observation = .error fault) :
    m = .decrement Int64.minValue ∧ fault = .decrementOverflow := by
  cases m with
  | decrement amount =>
    simp only [observation] at h
    split at h
    · rename_i hleast
      exact ⟨congrArg _ hleast, (Except.error.inj h).symm⟩
    · cases h
  | _ => cases h

/-! ## The two ways to fail -/

/-- An invalid measurement is an error of active reporters. Nothing is seen of it outside. -/
theorem Reporter.record_of_invalid {r : Reporter} (hr : r.isActive = true) {call : Call}
    (hm : call.measurement.IsInvalid) (h : Hub) :
    ∃ fault, r.record h call = ⟨.error (.rejected fault), h, []⟩ := by
  obtain ⟨scope, hi⟩ := (isActive_iff r).mp hr
  rw [record_eq, hi]
  cases ho : call.measurement.observation with
  | error fault => exact ⟨fault, by simp only [record, ho]; rfl⟩
  | ok kv =>
    obtain ⟨kind, value⟩ := kv
    rcases hm with hleast | ⟨kind', value', ho', hbad⟩
    · rw [hleast] at ho
      cases ho
    · rw [ho] at ho'
      cases ho'
      -- the check of the value finds a fault
      cases hf : kind.fault? value with
      | none => exact absurd ((Kind.fault?_eq_none_iff kind value).mp hf) hbad
      | some fault => exact ⟨fault, by simp only [record, ho, submit, Client.submit, Hub.submit_of_fault hf]⟩

theorem Reporter.observation?_of_valid {r : Reporter} {scope : String} (hi : r.inside = .active scope) {call : Call}
    (hm : ¬ call.measurement.IsInvalid) (defaults : List Tag) : ∃ kind value,
      call.measurement.observation = .ok (kind, value) ∧ kind.Takes value ∧
      r.observation? defaults call = some ⟨scope, call.key, kind, value, call.rate, defaults ++ call.tags⟩ := by
  cases ho : call.measurement.observation with
  | error fault => exact absurd (Or.inl (Measurement.observation_error ho).1) hm
  | ok kv =>
    obtain ⟨kind, value⟩ := kv
    have htakes : kind.Takes value :=
      Decidable.byContradiction fun hbad => hm (Or.inr ⟨kind, value, ho, hbad⟩)
    have hf := (Kind.fault?_eq_none_iff kind value).mpr htakes
    refine ⟨kind, value, rfl, htakes, ?_⟩
    simp [observation?, Measurement.accepted?, hi, ho, hf]

/-- An observation on its way fails only with the sink, and with the sink's own error. -/
theorem Hub.pass_result_error_iff {h : Hub} {o : Observation} {e : MetricError} :
    (h.pass o).result = .error e ↔ h.options.sampler.admits h.asked o.rate = true ∧
      ∃ cause, (h.sink.emit (o.packet h.options.tagFormat)).1 = .error cause ∧ e = .transport cause := by
  simp only [pass]
  split
  · rename_i hadmitted
    cases hemit : (h.sink.emit (o.packet h.options.tagFormat)).1 with
    | ok written =>
      constructor
      · intro herror
        cases herror
      · rintro ⟨-, _, hcause, -⟩
        cases hcause
    | error cause =>
      constructor
      · intro herror
        exact ⟨hadmitted, cause, rfl, (Except.error.inj herror).symm⟩
      · rintro ⟨-, _, hcause, rfl⟩
        cases hcause
        rfl
  · rename_i hrefused
    simp [hrefused]

/-- An observation on its way changes what sampler and sink have been through, and nothing else. -/
theorem Hub.pass_state (h : Hub) (o : Observation) :
    ∃ sink, (h.pass o).state = { h with asked := o.rate :: h.asked, sink := sink } := by
  simp only [pass]
  split <;> exact ⟨_, rfl⟩

theorem Hub.flush_result_error_iff {h : Hub} {e : MetricError} :
    h.flush.result = .error e ↔ ∃ cause, h.sink.flush.1 = .error cause ∧ e = .transport cause := by
  simp only [flush]
  cases h.sink.flush.1 <;> simp [eq_comm]

/-! ## One action -/

namespace Family

/-- The call gets as far as the sink, and the sink fails for this cause. -/
def EmitFails (f : Family) (r : Reporter) (call : Call) (cause : IoError) : Prop :=
  ∃ scope kind value, r.inside = .active scope ∧ call.measurement.observation = .ok (kind, value) ∧
    kind.Takes value ∧ f.hub.options.sampler.admits f.hub.asked call.rate = true ∧
    (f.hub.sink.emit (Observation.packet
      ⟨scope, call.key, kind, value, call.rate, f.hub.options.tags ++ call.tags⟩ f.hub.options.tagFormat)).1 =
        .error cause

/-- The same family, but for what sampler and sink have been through. -/
def withMemory (f : Family) (asked : List Binary32) (sink : Sink) : Family :=
  { f with hub := { f.hub with asked := asked, sink := sink } }

/-- How a call of a member ends. -/
structure Ending (f : Family) (r : Reporter) (call : Call) (result : Except MetricError Unit) (after : Family) :
    Prop where
  /-- Whether a value is invalid is seen from the call alone. -/
  invalid_iff : (∃ e, result = .error e ∧ e.kind = .invalidValue) ↔
    r.isActive = true ∧ call.measurement.IsInvalid
  /-- A failure of the transport is an emit that fails, and is told in the words of the sink. -/
  io_iff : ∀ e, (result = .error e ∧ e.kind = .ioError) ↔
    ∃ cause, f.EmitFails r call cause ∧ e = .transport cause ∧ e.text = cause.text ∧ e.source? = some cause
  /-- There are no other errors. -/
  kinds : ∀ e, result = .error e → e.kind = .invalidValue ∨ e.kind = .ioError
  /-- A rejected value leaves everything as it was. -/
  after_invalid : ∀ e, result = .error e → e.kind = .invalidValue → after = f
  /-- After a failed emit the members are what they were, with the same settings: only the sampler was asked once
  more, and the sink called. -/
  after_io : ∀ e, result = .error e → e.kind = .ioError →
    ∃ sink, after = f.withMemory (call.rate :: f.hub.asked) sink

variable {f : Family} {i : Nat} {r : Reporter}

theorem EmitFails.valid {call : Call} {cause : IoError} (h : f.EmitFails r call cause) :
    r.isActive = true ∧ ¬ call.measurement.IsInvalid := by
  obtain ⟨scope, kind, value, hc, ho, htakes, -⟩ := h
  refine ⟨(Reporter.isActive_iff r).mpr ⟨scope, hc⟩, ?_⟩
  rintro (hleast | ⟨kind', value', ho', hbad⟩)
  · rw [hleast] at ho
    cases ho
  · rw [ho] at ho'
    cases ho'
    exact hbad htakes

/-- The errors of a call that is not invalid are the failed emits. -/
theorem record_error_iff_emitFails {call : Call} {e : MetricError} (hr : r.isActive = true)
    (hm : ¬ call.measurement.IsInvalid) :
    (r.record f.hub call).result = .error e ↔ ∃ cause, f.EmitFails r call cause ∧ e = .transport cause := by
  obtain ⟨scope, hc⟩ := (Reporter.isActive_iff r).mp hr
  obtain ⟨kind, value, ho, htakes, hobs⟩ := Reporter.observation?_of_valid hc hm f.hub.options.tags
  rw [Reporter.record_of_observation hobs, Hub.pass_result_error_iff]
  constructor
  · rintro ⟨hadmitted, cause, hemit, he⟩
    exact ⟨cause, ⟨scope, kind, value, hc, ho, htakes, hadmitted, hemit⟩, he⟩
  · rintro ⟨cause, ⟨scope', kind', value', hc', ho', -, hadmitted, hemit⟩, he⟩
    -- client and measurement leave no choice of the observation
    rw [hc] at hc'
    rw [ho] at ho'
    cases hc'
    cases ho'
    exact ⟨hadmitted, cause, hemit, he⟩

theorem step_record_ending (hi : f.member? i = some r) (call : Call) :
    ∃ result, (f.step (.record i call)).result = .outcome result ∧
      f.Ending r call result (f.step (.record i call)).state := by
  have hstep : f.step (.record i call) = ⟨.outcome (r.record f.hub call).result,
      { f with hub := (r.record f.hub call).state }, (r.record f.hub call).events⟩ := by
    simp only [step, hi]
  refine ⟨(r.record f.hub call).result, by rw [hstep], ?_⟩
  rw [hstep]
  cases hr : r.isActive with
  | false =>
    -- nothing is an error of a member that is not active
    have hno : ∀ cause, ¬ f.EmitFails r call cause := by
      intro cause h
      rw [h.valid.1] at hr
      cases hr
    rw [Reporter.record_inactive hr]
    constructor <;> simp [hr, hno]
  | true =>
    by_cases hm : call.measurement.IsInvalid
    · obtain ⟨fault, hrecord⟩ := Reporter.record_of_invalid hr hm f.hub
      have hno : ∀ cause, ¬ f.EmitFails r call cause := fun cause h => h.valid.2 hm
      rw [hrecord]
      constructor <;> simp [hr, hm, hno, MetricError.kind]
    · have herror := fun e => record_error_iff_emitFails (f := f) (e := e) hr hm
      have hkind : ∀ e, (r.record f.hub call).result = .error e → e.kind = .ioError := by
        intro e he
        obtain ⟨cause, -, rfl⟩ := (herror e).mp he
        rfl
      constructor
      case invalid_iff =>
        refine ⟨?_, fun h => absurd h.2 hm⟩
        rintro ⟨e, he, hinvalid⟩
        rw [hkind e he] at hinvalid
        cases hinvalid
      case io_iff =>
        intro e
        constructor
        · rintro ⟨he, -⟩
          obtain ⟨cause, hfails, rfl⟩ := (herror e).mp he
          exact ⟨cause, hfails, rfl, rfl, rfl⟩
        · rintro ⟨cause, hfails, rfl, -⟩
          exact ⟨(herror _).mpr ⟨cause, hfails, rfl⟩, rfl⟩
      case kinds => exact fun e he => Or.inr (hkind e he)
      case after_invalid =>
        intro e he hinvalid
        rw [hkind e he] at hinvalid
        cases hinvalid
      case after_io =>
        intro e _ _
        obtain ⟨scope, hc⟩ := (Reporter.isActive_iff r).mp hr
        obtain ⟨kind, value, -, -, hobs⟩ := Reporter.observation?_of_valid hc hm f.hub.options.tags
        obtain ⟨sink, hstate⟩ := f.hub.pass_state
          ⟨scope, call.key, kind, value, call.rate, f.hub.options.tags ++ call.tags⟩
        exact ⟨sink, by rw [Reporter.record_of_observation hobs, hstate]; rfl⟩

theorem step_closing_error_iff (hi : f.member? i = some r) {a : Action} (ha : a = .close i ∨ a = .flush i) :
    ∃ result, (f.step a).result = .outcome result ∧ ∀ e, result = .error e ↔
      r.isActive = true ∧ ∃ cause, f.hub.sink.flush.1 = .error cause ∧ e = .transport cause := by
  have hinactive : ∀ c, r.inside = c → c.isActive = false → r.isActive = false := by
    intro c hc h
    rw [Reporter.isActive_eq, hc, h]
  rcases ha with rfl | rfl
  · refine ⟨(r.close f.hub).result, by simp only [step, hi], fun e => ?_⟩
    rw [Reporter.close_eq]
    cases hc : r.inside with
    | active scope =>
      rw [Reporter.isActive_eq, hc]
      exact Hub.flush_result_error_iff.trans (by simp [Client.isActive])
    | absent | closed => simp [Client.close, hinactive _ hc rfl]
  · refine ⟨(r.inside.flush f.hub).result, by simp only [step, hi], fun e => ?_⟩
    cases hc : r.inside with
    | active scope =>
      rw [Reporter.isActive_eq, hc]
      exact Hub.flush_result_error_iff.trans (by simp [Client.isActive])
    | absent | closed => simp [Client.flush, hinactive _ hc rfl]

/-- No action on a family is an error of its configuration. -/
theorem step_error_kind {a : Action} {e : MetricError} (h : (f.step a).result = .outcome (.error e)) :
    e.kind ≠ .invalidConfig := by
  have hclosing : ∀ i a', a' = .close i ∨ a' = .flush i → (f.step a').result = .outcome (.error e) →
      e.kind ≠ .invalidConfig := by
    intro i a' ha h
    cases hi : f.member? i with
    | none => rcases ha with rfl | rfl <;> simp [step, hi] at h
    | some r =>
      obtain ⟨result, hresult, herror⟩ := step_closing_error_iff hi ha
      rw [hresult] at h
      cases h
      obtain ⟨-, cause, -, rfl⟩ := (herror e).mp rfl
      simp [MetricError.kind]
  cases a with
  | record i call =>
    cases hi : f.member? i with
    | none => simp [step, hi] at h
    | some r =>
      obtain ⟨result, hresult, hending⟩ := step_record_ending hi call
      rw [hresult] at h
      cases h
      rcases hending.kinds e rfl with hk | hk <;> simp [hk]
  | close i => exact hclosing i _ (.inl rfl) h
  | flush i => exact hclosing i _ (.inr rfl) h
  | ask i question =>
    cases hi : f.member? i with
    | none => simp [step, hi] at h
    | some r => cases question <;> simp [step, hi, Reporter.answer] at h
  | drop i | derive i => cases hi : f.member? i <;> simp [step, hi] at h
  | wrap | receive | hangUp | lookedUp => cases h

theorem run_error_kind (f : Family) (actions : List Action) :
    ∀ reply ∈ (f.run actions).result, ∀ e, reply = .outcome (.error e) → e.kind ≠ .invalidConfig := by
  induction actions generalizing f with
  | nil =>
    intro reply hreply
    cases hreply
  | cons a rest ih =>
    intro reply hreply e he
    rcases List.mem_cons.mp hreply with rfl | hlater
    · exact step_error_kind he
    · exact ih (f.step a).state reply hlater e he

end Family

/-- **How calls end.** For any member of any family: a call is rejected exactly if the member is active and the
measurement is invalid, and fails with the transport exactly if it comes to an emit and the sink fails; a close or a
flush fails exactly if the member is active and the sink's flush fails. All of these are told in the sink's own
words, a failed call leaves the members and the settings as they were, and no action of any run is an error of the
configuration. -/
theorem endings {f : Family} {i : Nat} {r : Reporter} (hi : f.member? i = some r) :
    (∀ call, ∃ result, (f.step (.record i call)).result = .outcome result ∧
      f.Ending r call result (f.step (.record i call)).state) ∧
    (∀ a, a = .close i ∨ a = .flush i → ∃ result, (f.step a).result = .outcome result ∧
      ∀ e, result = .error e ↔ r.isActive = true ∧
        ∃ cause, f.hub.sink.flush.1 = .error cause ∧ e = .transport cause ∧ e.kind = .ioError) ∧
    ∀ actions, ∀ reply ∈ (f.run actions).result, ∀ e, reply = .outcome (.error e) → e.kind ≠ .invalidConfig := by
  refine ⟨Family.step_record_ending hi, fun a ha => ?_, f.run_error_kind⟩
  obtain ⟨result, hresult, herror⟩ := Family.step_closing_error_iff hi ha
  refine ⟨result, hresult, fun e => (herror e).trans (and_congr_right fun _ => ?_)⟩
  refine exists_congr fun cause => and_congr_right fun _ => ⟨?_, And.left⟩
  rintro rfl
  exact ⟨rfl, rfl⟩

/-- A value that does not fit is reported as such, although the sink would fail as well. -/
theorem endings_refusing :
    let f := ((Family.ofClient "app" (.refusing .brokenPipe) {}).run [.derive 0 "db", .close 0]).state
    let r : Reporter := .client (.active "app.db")
    let call : Call := ⟨"n", .stat .raw (.int 1), .one, []⟩
    f.member? 1 = some r ∧
    (f.step (.record 1 call)).result = .outcome (.error (.rejected .rawNeedsText)) ∧
    f.Ending r call (.error (.rejected .rawNeedsText)) (f.step (.record 1 call)).state ∧
    ∃ result, (f.step (.flush 1)).result = .outcome result ∧
      ∀ e, result = .error e ↔ r.isActive = true ∧
        ∃ cause, f.hub.sink.flush.1 = .error cause ∧ e = .transport cause ∧ e.kind = .ioError := by
  intro f r call
  have hi : f.member? 1 = some r := by decide +kernel
  obtain ⟨hcalls, hclosing, -⟩ := endings hi
  obtain ⟨result, hresult, hending⟩ := hcalls call
  have hr : result = .error (.rejected .rawNeedsText) := (Reply.outcome.inj hresult).symm
  subst hr
  exact ⟨hi, rfl, hending, hclosing (.flush 1) (.inr rfl)⟩

end MetricWire
