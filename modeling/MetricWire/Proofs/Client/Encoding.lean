import MetricWire.Proofs.Client.Outcome
import MetricWire.Proofs.Client.Traffic

/-!
The packets of a client against the packets of `encode`.

A client writes its scope and the name of a call one after the other, and its default tags before those of the call;
`encode` is given a whole name and all tags at once. A builder's steps are a list of settings, of which the tags add
up and the last dialect holds.

  1. `ClientOptions.ofSettings_tags`, `ClientOptions.ofSettings_tagFormat` — what a builder's steps come to.
  2. `Observation.packet_eq_packet_fullName` — a packet depends on the full name alone.
  3. `Family.step_stat_eq_encode` — one call of an active member.
  4. `stat_agrees_with_encode` — any call at any moment of any run.
-/

namespace MetricWire

/-! ## The steps of a builder -/

/-- One step of a builder. -/
inductive Setting
  | tag (tag : Tag)
  | tagFormat (format : TagFormat)
  | sampler (sampler : Sampler)

namespace Setting

def tag? : Setting → Option Tag
  | tag t => some t
  | _ => none

def tagFormat? : Setting → Option TagFormat
  | tagFormat format => some format
  | _ => none

end Setting

namespace ClientOptions

def apply (o : ClientOptions) : Setting → ClientOptions
  | .tag t => o.withTag t
  | .tagFormat format => o.withTagFormat format
  | .sampler s => o.withSampler s

/-- The options of a new builder after some steps. -/
def ofSettings (settings : List Setting) : ClientOptions := settings.foldl apply {}

theorem foldl_apply_tags (settings : List Setting) (o : ClientOptions) :
    (settings.foldl apply o).tags = o.tags ++ settings.filterMap Setting.tag? := by
  induction settings generalizing o with
  | nil => simp
  | cons s rest ih =>
    rw [List.foldl_cons, ih]
    cases s with
    | tag t => exact List.append_assoc ..
    | tagFormat | sampler => rfl

theorem foldl_apply_tagFormat (settings : List Setting) (o : ClientOptions) :
    (settings.foldl apply o).tagFormat =
      (settings.filterMap Setting.tagFormat?).getLast?.getD o.tagFormat := by
  induction settings generalizing o with
  | nil => rfl
  | cons s rest ih =>
    rw [List.foldl_cons, ih]
    cases s with
    | tagFormat format =>
      change _ = (format :: rest.filterMap Setting.tagFormat?).getLast?.getD _
      rw [List.getLast?_cons]
      rfl
    | tag | sampler => rfl

theorem ofSettings_tags (settings : List Setting) : (ofSettings settings).tags = settings.filterMap Setting.tag? :=
  foldl_apply_tags settings {}

theorem ofSettings_tagFormat (settings : List Setting) : (ofSettings settings).tagFormat =
    (settings.filterMap Setting.tagFormat?).getLast?.getD .suffixOctothorpe :=
  foldl_apply_tagFormat settings {}

end ClientOptions

/-! ## One call -/

/-- Scope and key may as well be joined beforehand. -/
theorem Observation.packet_eq_packet_fullName (o : Observation) (format : TagFormat) :
    o.packet format = Observation.packet { o with scope := "", key := scopedName o.scope o.key } format := by
  have hname : scopedName "" (scopedName o.scope o.key) = scopedName o.scope o.key := if_pos rfl
  unfold packet
  rw [hname]
  cases format <;> rfl

namespace Family
variable {f : Family} {i : Nat}

/-- The settings are those that the family was made with, at any moment of any run. -/
theorem run_options (f : Family) (actions : List Action) : (f.run actions).state.hub.options = f.hub.options := by
  induction actions generalizing f with
  | nil => rfl
  | cons a rest ih => exact (ih (f.step a).state).trans (f.step_effect a).options

theorem of_ask_scope {scope : String} (h : (f.step (.ask i .scope)).result = .text (some scope)) :
    ∃ r, f.member? i = some r ∧ r.inside = .active scope := by
  cases hi : f.member? i with
  | none => simp [step, hi] at h
  | some r =>
    simp only [step, hi, Reporter.answer, Reply.text.injEq] at h
    cases hc : r.inside <;> simp [hc, Client.scope?] at h
    exact ⟨r, rfl, by rw [hc, h]⟩

/-- One call of an active member: what `encode` refuses is refused, and what it writes is on its way. -/
theorem step_stat_eq_encode {r : Reporter} {scope : String} (hi : f.member? i = some r)
    (hc : r.inside = .active scope) (key : String) (kind : Kind) (value : Value) (rate : Binary32)
    (tags : List Tag) :
    let turn := f.step (.record i ⟨key, .stat kind value, rate, tags⟩)
    match encode (scopedName scope key) kind value rate (f.hub.options.tags ++ tags) f.hub.options.tagFormat with
    | .error e => turn.result = .outcome (.error e) ∧ turn.events = []
    | .ok packet =>
      (∀ e, turn.result = .outcome (.error e) → e.kind ≠ .invalidValue) ∧
      turn.events.filterMap Event.emitted? =
        if f.hub.options.sampler.admits f.hub.asked rate then [packet] else [] := by
  intro turn
  have hstep : turn = ⟨.outcome (f.hub.submit scope key kind value rate tags).result,
      { f with hub := (f.hub.submit scope key kind value rate tags).state },
      (f.hub.submit scope key kind value rate tags).events⟩ := by
    simp only [turn, step, hi, Reporter.record_eq r, hc]
    rfl
  cases hf : kind.fault? value with
  | some fault =>
    rw [Hub.submit_of_fault hf] at hstep
    simp only [encode, hf, hstep, and_self]
  | none =>
    rw [Hub.submit_eq_pass hf] at hstep
    simp only [encode, hf, hstep]
    refine ⟨?_, ?_⟩
    · intro e he
      obtain ⟨-, cause, -, rfl⟩ := Hub.pass_result_error_iff.mp (Reply.outcome.inj he)
      simp [MetricError.kind]
    · rw [Hub.pass_emitted, Observation.packet_eq_packet_fullName]

end Family

/-- **A client writes what `encode` writes.** Take a client with any settings and, at any moment of any run, a
member that tells its scope. What it emits for a call is what `encode` writes for the full name, with the default
tags in the order in which they were added before those of the call, in the dialect that was set last. It emits just
that if the sampler admits the call, and it rejects a value exactly when `encode` does, with the same error. -/
theorem stat_agrees_with_encode (base : String) (sink : Sink) (settings : List Setting) (actions : List Action)
    {i : Nat} {scope : String}
    (hs : (((Family.ofClient base sink (.ofSettings settings)).run actions).state.step (.ask i .scope)).result =
      .text (some scope))
    (key : String) (kind : Kind) (value : Value) (rate : Binary32) (tags : List Tag) :
    let f := ((Family.ofClient base sink (.ofSettings settings)).run actions).state
    let turn := f.step (.record i ⟨key, .stat kind value, rate, tags⟩)
    let encoded := encode (if scope = "" then key else scope ++ "." ++ key) kind value rate
      (settings.filterMap Setting.tag? ++ tags)
      ((settings.filterMap Setting.tagFormat?).getLast?.getD .suffixOctothorpe)
    (∀ packet outcome, .emit packet outcome ∈ turn.events → encoded = .ok packet) ∧
    (∀ packet, encoded = .ok packet → turn.events.filterMap Event.emitted? =
      if f.hub.options.sampler.admits f.hub.asked rate then [packet] else []) ∧
    ∀ e : MetricError, e.kind = .invalidValue → (turn.result = .outcome (.error e) ↔ encoded = .error e) := by
  intro f turn encoded
  obtain ⟨r, hi, hc⟩ := Family.of_ask_scope hs
  have hoptions : f.hub.options = .ofSettings settings := Family.run_options _ actions
  have hstep := Family.step_stat_eq_encode hi hc key kind value rate tags
  rw [hoptions, ClientOptions.ofSettings_tags, ClientOptions.ofSettings_tagFormat] at hstep
  change match encoded with | .error e => _ | .ok packet => _ at hstep
  have hmem : ∀ {packet outcome}, Event.emit packet outcome ∈ turn.events →
      packet ∈ turn.events.filterMap Event.emitted? :=
    fun h => List.mem_filterMap.mpr ⟨_, h, rfl⟩
  cases he : encoded with
  | error e =>
    rw [he] at hstep
    obtain ⟨hresult, hevents⟩ := hstep
    refine ⟨?_, ?_, ?_⟩
    · intro packet outcome h
      rw [show turn.events = [] from hevents] at h
      cases h
    · intro packet h
      cases h
    · intro e' _
      rw [show turn.result = _ from hresult]
      simp
  | ok packet =>
    rw [he] at hstep
    obtain ⟨hresult, hemitted⟩ := hstep
    refine ⟨?_, ?_, ?_⟩
    · intro packet' outcome h
      have hm := hmem h
      rw [show turn.events.filterMap Event.emitted? = _ from hemitted] at hm
      split at hm
      · rw [List.mem_singleton.mp hm]
      · cases hm
    · rintro _ ⟨⟩
      rw [show turn.events.filterMap Event.emitted? = _ from hemitted, hoptions]
    · intro e hk
      exact ⟨fun h => absurd hk (hresult e h), fun h => by cases h⟩

/-- Two derived clients, of which one adds an empty scope, and a dialect that is set twice. -/
theorem stat_agrees_with_encode_derived :
    let settings : List Setting := [.tag ⟨"env", "prod"⟩, .tagFormat .infixComma, .sampler (.every 2),
      .tag ⟨"env", "b"⟩, .tagFormat .infixSemicolon]
    let f := ((Family.ofClient "" .discard (.ofSettings settings)).run [.derive 0 "db", .derive 1 "", .close 0]).state
    let turn := f.step (.record 2 ⟨"hits", .stat .gaugeDelta (.int 0), .one, [⟨"", "x"⟩]⟩)
    (f.step (.ask 2 .scope)).result = .text (some "db") ∧
    encode "db.hits" .gaugeDelta (.int 0) .one [⟨"env", "prod"⟩, ⟨"env", "b"⟩, ⟨"", "x"⟩] .infixSemicolon =
      .ok "db.hits;env=prod;env=b;=x:+0|g" ∧
    turn.events.filterMap Event.emitted? = ["db.hits;env=prod;env=b;=x:+0|g"] := by
  intro settings f turn
  have hs : (f.step (.ask 2 .scope)).result = .text (some "db") := by
    have hi : f.member? 2 = some (.client (.active "db")) := by decide +kernel
    simp only [Family.step, hi]
    rfl
  have he : encode "db.hits" .gaugeDelta (.int 0) .one [⟨"env", "prod"⟩, ⟨"env", "b"⟩, ⟨"", "x"⟩]
      .infixSemicolon = .ok "db.hits;env=prod;env=b;=x:+0|g" := congrArg Except.ok (by decide +kernel)
  obtain ⟨-, hemitted, -⟩ := stat_agrees_with_encode "" .discard settings [.derive 0 "db", .derive 1 "", .close 0]
    hs "hits" .gaugeDelta (.int 0) .one [⟨"", "x"⟩]
  exact ⟨hs, he, hemitted _ he⟩

end MetricWire
