import MetricWire.Proofs.Client.Scopes
import MetricWire.Proofs.Packet.Gauge
import MetricWire.Proofs.Packet.Reading

/-!
Counters.

A decrement is the increment by the negated amount, in every state that a reporter can be in. Only the least integer has
no negation: active reporters refuse to decrement by it before anything else is looked at, and all others take it like
any other amount.

  1. `Family.step_asIncrement`, `Family.run_asIncrement` — one action and a whole run, with the decrements turned round.
  2. `Kind.readInt?_token`, `Kind.token_int_head_minus` — an integer is read back from its text, sign and all.
  3. `Family.Contains.counts` — the packets of an active member.
  4. `decrements_negate` — all of it, with the least integer.
-/

namespace MetricWire

open Numeral

/-! ## Decrements turned round -/

theorem toInt_neg_of_ne_least {v : Int64} (h : v ≠ Int64.minValue) : (-v).toInt = -v.toInt :=
  BitVec.toInt_neg_of_ne_intMin fun hleast => h (Int64.toBitVec_inj.mp hleast)

theorem Measurement.observation_decrement {v : Int64} (h : v ≠ Int64.minValue) :
    (decrement v).observation = .ok (.counter, .int (-v)) := if_neg h

/-- The increment that stands for a decrement, if the amount can be negated. -/
def Measurement.asIncrement : Measurement → Measurement
  | decrement v => if v = Int64.minValue then decrement v else increment (-v)
  | m => m

def Action.asIncrement : Action → Action
  | record i call => record i { call with measurement := call.measurement.asIncrement }
  | a => a

theorem Measurement.observation_asIncrement (m : Measurement) : m.asIncrement.observation = m.observation := by
  cases m with
  | decrement v =>
    by_cases hv : v = Int64.minValue
    · rw [asIncrement, if_pos hv]
    · rw [asIncrement, if_neg hv, observation_decrement hv, observation]
  | _ => rfl

/-- A measurement matters only for its observation. -/
theorem Reporter.record_asIncrement (r : Reporter) (h : Hub) (call : Call) :
    r.record h { call with measurement := call.measurement.asIncrement } = r.record h call := by
  simp only [record, Measurement.observation_asIncrement]

namespace Family

theorem step_asIncrement (f : Family) (a : Action) : f.step a.asIncrement = f.step a := by
  cases a with
  | record i call =>
    cases hi : f.member? i with
    | none => simp only [Action.asIncrement, step, hi]
    | some r => simp only [Action.asIncrement, step, hi, r.record_asIncrement]
  | _ => rfl

theorem run_asIncrement (f : Family) (actions : List Action) :
    f.run (actions.map Action.asIncrement) = f.run actions := by
  induction actions generalizing f with
  | nil => rfl
  | cons a rest ih => simp only [List.map_cons, run, step_asIncrement, ih]

end Family

/-! ## The text of an integer -/

/-- Only changes of a gauge force a sign. -/
theorem Kind.token_of_ne {k : Kind} (hk : k ≠ .gaugeDelta) (v : Value) : k.token v = v.plain := by
  simp [token, hk]

namespace Value.Written
variable {v : Value} {w : Numeral}

theorem ofChars?_token (h : v.Written w) (k : Kind) : ofChars? (k.token v).toList = some w := by
  by_cases hk : k = .gaugeDelta
  · rw [hk, h.ofChars?_token_gaugeDelta]
  · rw [Kind.token_of_ne hk, h.text, ofChars?_text h.plain]

theorem token_head_minus_iff (h : v.Written w) (k : Kind) :
    (k.token v).toList.head? = some '-' ↔ v.isNegative = true := by
  by_cases hk : k = .gaugeDelta
  · obtain ⟨digit, rest, -, htoken⟩ := h.token_gaugeDelta_head
    rw [hk, htoken]
    cases v.isNegative <;> simp
  · rw [Kind.token_of_ne hk, h.head_minus_iff]

end Value.Written

namespace Kind

theorem readInt?_token (k : Kind) (n : Int64) : readInt? (k.token (.int n)).toList = some n.toInt := by
  rw [readInt?, (Value.written_int n).ofChars?_token k]
  exact congrArg some (toInt_ofInt _)

theorem token_int_head_minus (k : Kind) (n : Int64) :
    (k.token (.int n)).toList.head? = some '-' ↔ n.toInt < 0 := by
  rw [(Value.written_int n).token_head_minus_iff, ← (Value.written_int n).sign]
  simp [ofInt, Decimal.numeral]

end Kind

/-! ## Packets -/

/-- Packets of counters that differ in the amount alone are the same before and behind it. -/
theorem encode_counter (name : String) (rate : Binary32) (tags : List Tag) (format : TagFormat) :
    ∃ before behind, ∀ v : Int64,
      encode name .counter (.int v) rate tags format = .ok (before ++ toString v.toInt ++ behind) := by
  refine ⟨name ++ format.nameTags tags ++ ":", typeClause .counter ++ rateClause rate ++ format.endTags tags,
    fun v => ?_⟩
  have haccepted : Kind.counter.fault? (.int v) = none := rfl
  have htoken : Kind.counter.token (.int v) = toString v.toInt := rfl
  rw [encode_of_accepted haccepted, measured, htoken]
  simp only [String.append_assoc]

def Reading.amount? (before behind packet : String) : Option Int :=
  readInt? ((packet.toList.drop before.length).rdrop behind.length)

theorem Reading.amount?_counter (before behind : String) (v : Int64) :
    amount? before behind (before ++ toString v.toInt ++ behind) = some v.toInt := by
  have htoken : (toString v.toInt).toList = (Kind.counter.token (.int v)).toList := rfl
  rw [amount?, ← String.length_toList, ← String.length_toList, String.toList_append, String.toList_append,
    List.append_assoc, List.drop_left, List.rdrop_append_length, htoken]
  exact Kind.readInt?_token .counter v

/-- The integer in the value of a packet. -/
def Reading.integer? (format : TagFormat) (packet : String) : Option Int :=
  readInt? (ofPacket format packet).token.toList

theorem Reading.integer?_encode {name packet : String} {v : Int64} {rate : Binary32} {tags : List Tag}
    {format : TagFormat} (h : encode name .counter (.int v) rate tags format = .ok packet)
    (hr : Readable name tags format) : integer? format packet = some v.toInt := by
  obtain ⟨type, -, hpacket⟩ := ofPacket_encode (by decide) h (by rintro s ⟨⟩) hr
  rw [integer?, hpacket]
  exact Kind.readInt?_token .counter v

namespace Family

/-- The packets that a call of a member emits. -/
def emittedBy (f : Family) (i : Nat) (call : Call) : List String :=
  (f.step (.record i call)).events.filterMap Event.emitted?

/-- The packets of counters under one name, at one rate and with the same tags: around the amount they are the same, and
the amount is written as it is or with the other sign. -/
structure Counts (f : Family) (i : Nat) (scope key : String) (rate : Binary32) (tags : List Tag)
    (before behind : String) : Prop where
  increment : ∀ v : Int64, f.emittedBy i ⟨key, .increment v, rate, tags⟩ =
    if f.hub.options.sampler.admits f.hub.asked rate then [before ++ toString v.toInt ++ behind] else []
  decrement : ∀ v : Int64, v ≠ Int64.minValue → f.emittedBy i ⟨key, .decrement v, rate, tags⟩ =
    if f.hub.options.sampler.admits f.hub.asked rate then [before ++ toString (-v.toInt) ++ behind] else []
  /-- What is read of the two amounts comes to nothing. -/
  sum : ∀ v : Int64, v ≠ Int64.minValue → ∀ p ∈ f.emittedBy i ⟨key, .increment v, rate, tags⟩,
    ∀ q ∈ f.emittedBy i ⟨key, .decrement v, rate, tags⟩,
      ∃ a b, Reading.amount? before behind p = some a ∧ Reading.amount? before behind q = some b ∧ a + b = 0
  /-- Where name and tags can be told apart, the amounts are found by who knows the dialect alone. -/
  read : Readable (scopedName scope key) (f.hub.options.tags ++ tags) f.hub.options.tagFormat → ∀ v : Int64,
    (∀ p ∈ f.emittedBy i ⟨key, .increment v, rate, tags⟩,
      Reading.integer? f.hub.options.tagFormat p = some v.toInt) ∧
    (v ≠ Int64.minValue → ∀ q ∈ f.emittedBy i ⟨key, .decrement v, rate, tags⟩,
      Reading.integer? f.hub.options.tagFormat q = some (-v.toInt))

namespace Contains
variable {f : Family} {i : Nat} {scope key : String} {rate : Binary32} {tags : List Tag}

theorem emittedBy_counter (h : f.Contains i (.active scope)) {m : Measurement} {v : Int64} {packet : String}
    (hm : m.observation = .ok (.counter, .int v))
    (hp : encode (scopedName scope key) .counter (.int v) rate (f.hub.options.tags ++ tags) f.hub.options.tagFormat =
      .ok packet) :
    f.emittedBy i ⟨key, m, rate, tags⟩ = if f.hub.options.sampler.admits f.hub.asked rate then [packet] else [] := by
  have haccepted : m.accepted? = some (.counter, .int v) := by
    rw [Measurement.accepted?, hm]
    rfl
  rw [← Except.ok.inj hp]
  exact h.emitted haccepted key rate tags

theorem counts (h : f.Contains i (.active scope)) (key : String) (rate : Binary32) (tags : List Tag) :
    ∃ before behind, f.Counts i scope key rate tags before behind := by
  obtain ⟨before, behind, hencode⟩ :=
    encode_counter (scopedName scope key) rate (f.hub.options.tags ++ tags) f.hub.options.tagFormat
  have hincrement := fun v => h.emittedBy_counter (m := .increment v) rfl (hencode v)
  have hdecrement := fun v hv => h.emittedBy_counter (Measurement.observation_decrement (v := v) hv) (hencode (-v))
  -- the packet is the one that is encoded, if there is one
  have hsingle : ∀ {admitted : Bool} {p packet : String}, p ∈ (if admitted then [packet] else []) → p = packet := by
    intro admitted p packet hp
    cases admitted with
    | true => exact List.mem_singleton.mp hp
    | false => cases hp
  refine ⟨before, behind, ?_⟩
  constructor
  case increment => exact hincrement
  case decrement =>
    intro v hv
    rw [hdecrement v hv, toInt_neg_of_ne_least hv]
  case sum =>
    intro v hv p hp q hq
    rw [hincrement v] at hp
    rw [hdecrement v hv] at hq
    rw [hsingle hp, hsingle hq]
    refine ⟨_, _, Reading.amount?_counter before behind v, Reading.amount?_counter before behind (-v), ?_⟩
    rw [toInt_neg_of_ne_least hv, add_neg_cancel]
  case read =>
    intro hread v
    refine ⟨fun p hp => ?_, fun hv q hq => ?_⟩
    · rw [hincrement v] at hp
      rw [hsingle hp]
      exact Reading.integer?_encode (hencode v) hread
    · rw [hdecrement v hv] at hq
      rw [hsingle hq, ← toInt_neg_of_ne_least hv]
      exact Reading.integer?_encode (hencode (-v)) hread

end Contains
end Family

open Family in
/-- **Decrements are increments by the negation.** Whatever state a member is in, and whatever options are around it, a
decrement and the increment by the exact negation are the same step: the same answer, questions, packets and counters.
So a run may have all of its decrements turned round. The least integer has no negation; of a decrement by it an active
member says that the value is invalid, all others take it, and nothing changes or is seen of it outside. The packets of
an active member hold the amount as it is, or its negation, and what is read back from the two comes to nothing; and no
kind of metric writes an integer as another one, or with a wrong sign. -/
theorem decrements_negate :
    (∀ (f : Family) (i : Nat) (key : String) (v : Int64) (rate : Binary32) (tags : List Tag), v ≠ Int64.minValue →
      ∃ w : Int64, w.toInt = -v.toInt ∧ f.step (.record i ⟨key, .decrement v, rate, tags⟩) =
        f.step (.record i ⟨key, .increment w, rate, tags⟩)) ∧
    (∀ (f : Family) (actions : List Action), f.run (actions.map Action.asIncrement) = f.run actions) ∧
    (∀ (f : Family) (i : Nat) (r : Reporter), f.member? i = some r → ∀ key rate tags, ∃ result,
      f.step (.record i ⟨key, .decrement Int64.minValue, rate, tags⟩) = ⟨.outcome result, f, []⟩ ∧
      if r.isActive then ∃ e, result = .error e ∧ e.kind = .invalidValue else result = .ok ()) ∧
    (∀ (f : Family) (i : Nat) (scope : String), f.Contains i (.active scope) → ∀ key rate tags,
      ∃ before behind, f.Counts i scope key rate tags before behind) ∧
    ∀ (kind : Kind) (n : Int64), readInt? (kind.token (.int n)).toList = some n.toInt ∧
      ((kind.token (.int n)).toList.head? = some '-' ↔ n.toInt < 0) := by
  refine ⟨?_, run_asIncrement, ?_, fun f i scope h => h.counts,
    fun kind n => ⟨kind.readInt?_token n, kind.token_int_head_minus n⟩⟩
  · intro f i key v rate tags hv
    refine ⟨-v, toInt_neg_of_ne_least hv, ?_⟩
    have hstep := f.step_asIncrement (.record i ⟨key, .decrement v, rate, tags⟩)
    rw [Action.asIncrement, Measurement.asIncrement, if_neg hv] at hstep
    exact hstep.symm
  · intro f i r hi key rate tags
    refine ⟨if r.isActive then .error (.rejected .decrementOverflow) else .ok (), ?_, ?_⟩
    · simp only [step, hi, r.record_decrement_least]
    · cases r.isActive with
      | true => exact ⟨_, rfl, rfl⟩
      | false => rfl

open Family in
/-- The largest integer, whose negation is one above the least, and the least one itself. -/
theorem decrements_negate_largest :
    let f := Family.ofClient "app" .discard {}
    Int64.maxValue ≠ Int64.minValue ∧ f.member? 0 = some (.client (.active "app")) ∧
    f.Contains 0 (.active "app") ∧
    (∃ w : Int64, w.toInt = -9223372036854775807 ∧ f.step (.record 0 ⟨"n", .decrement Int64.maxValue, .one, []⟩) =
      f.step (.record 0 ⟨"n", .increment w, .one, []⟩)) ∧
    (∃ result e, f.step (.record 0 ⟨"n", .decrement Int64.minValue, .one, []⟩) = ⟨.outcome result, f, []⟩ ∧
      result = .error e ∧ e.kind = .invalidValue) ∧
    ∃ before behind, f.emittedBy 0 ⟨"n", .decrement Int64.maxValue, .one, []⟩ =
      [before ++ "-9223372036854775807" ++ behind] := by
  intro f
  have hne : Int64.maxValue ≠ Int64.minValue := by decide
  have hi : f.member? 0 = some (.client (.active "app")) := rfl
  have hc : f.Contains 0 (.active "app") := ⟨_, hi, rfl⟩
  obtain ⟨hnegation, -, hleast, hpackets, -⟩ := decrements_negate
  obtain ⟨w, hw, hstep⟩ := hnegation f 0 "n" Int64.maxValue .one [] hne
  obtain ⟨result, hresult, e, he⟩ := hleast f 0 _ hi "n" .one []
  obtain ⟨before, behind, hcounts⟩ := hpackets f 0 "app" hc "n" .one []
  exact ⟨hne, hi, hc, ⟨w, hw, hstep⟩, ⟨result, e, hresult, he⟩, before, behind, hcounts.decrement _ hne⟩

end MetricWire
