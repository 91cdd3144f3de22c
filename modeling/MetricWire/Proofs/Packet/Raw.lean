import MetricWire.Proofs.Client.Effect
import MetricWire.Proofs.Packet.Clauses
import MetricWire.Proofs.Packet.Reading

/-!
Raw metrics.

A raw metric brings a text with a type of its own, and nothing is added to it but rate and tags. So what is written of
any other metric can as well be written as a raw one, whose text is the value as its kind writes it, a bar, and the
type.

  1. `Observation.packet_asRaw` — the packet of an observation and that of its raw form.
  2. `encode_raw` — the packet of a raw metric, which takes any text.
  3. `Family.step_asRaw` — a call and the call of its raw form cannot be told apart.
  4. `raw_agrees` — all of it.
-/

namespace MetricWire

/-- The text that says of a raw metric what a kind says of a value. -/
def Kind.rawText (k : Kind) (v : Value) (type : String) : String := k.token v ++ "|" ++ type

variable {kind : Kind} {value : Value} {type : String}

/-! ## Packets -/

theorem token_raw (s : String) : Kind.raw.token (.text s) = s := rfl

theorem typeClause_of_suffix? (h : kind.suffix? = some type) : typeClause kind = "|" ++ type := by
  rw [typeClause, h]

/-- The type moves from its own clause to the end of the value. -/
theorem Observation.packet_asRaw {o : Observation} (h : o.kind.suffix? = some type) (format : TagFormat) :
    o.packet format =
      Observation.packet { o with kind := .raw, value := .text (o.kind.rawText o.value type) } format := by
  have hraw : typeClause .raw = "" := rfl
  simp only [packet, typeClause_of_suffix? h, hraw, token_raw, Kind.rawText, String.append_empty, String.append_assoc]
  cases format <;> rfl

/-- A raw metric takes any text, and behind it there are only the rate and the tags of the suffix dialect. -/
theorem encode_raw (s name : String) (rate : Binary32) (tags : List Tag) (format : TagFormat) :
    encode name .raw (.text s) rate tags format =
      .ok (name ++ format.nameTags tags ++ ":" ++ s ++ rateClause rate ++ format.endTags tags) := by
  have haccepted : Kind.raw.fault? (.text s) = none := rfl
  have hraw : typeClause .raw = "" := rfl
  rw [encode_of_accepted haccepted, measured, hraw, token_raw]
  simp only [String.append_empty, String.append_assoc]

theorem encode_asRaw {name packet : String} {rate : Binary32} {tags : List Tag} {format : TagFormat}
    (htype : kind.suffix? = some type) (h : encode name kind value rate tags format = .ok packet) :
    encode name .raw (.text (kind.rawText value type)) rate tags format = .ok packet := by
  have haccepted : Kind.raw.fault? (.text (kind.rawText value type)) = none := rfl
  unfold encode at h
  split at h
  · cases h
  · rw [← Except.ok.inj h, encode, haccepted]
    exact congrArg Except.ok (Observation.packet_asRaw (o := ⟨"", name, kind, value, rate, tags⟩) htype format).symm

/-! ## Calls -/

theorem Reporter.record_asRaw (r : Reporter) (h : Hub) {m : Measurement} (htype : kind.suffix? = some type)
    (hm : m.accepted? = some (kind, value)) (key : String) (rate : Binary32) (tags : List Tag) :
    r.record h ⟨key, m, rate, tags⟩ = r.record h ⟨key, .raw (kind.rawText value type), rate, tags⟩ := by
  cases hr : r.isActive with
  | false => rw [record_inactive hr, record_inactive hr]
  | true =>
    obtain ⟨scope, hi⟩ := (isActive_iff r).mp hr
    have hraw : (Measurement.raw (kind.rawText value type)).accepted? = some (.raw, .text _) := rfl
    have htyped : r.observation? h.options.tags ⟨key, m, rate, tags⟩ =
        some ⟨scope, key, kind, value, rate, h.options.tags ++ tags⟩ := by
      simp only [observation?, hi, hm]
    have hasRaw : r.observation? h.options.tags ⟨key, .raw (kind.rawText value type), rate, tags⟩ =
        some ⟨scope, key, .raw, .text (kind.rawText value type), rate, h.options.tags ++ tags⟩ := by
      simp only [observation?, hi, hraw]
    rw [record_of_observation htyped, record_of_observation hasRaw]
    exact Hub.pass_congr rfl (Observation.packet_asRaw htype _)

theorem Family.step_asRaw (f : Family) (i : Nat) {m : Measurement} (htype : kind.suffix? = some type)
    (hm : m.accepted? = some (kind, value)) (key : String) (rate : Binary32) (tags : List Tag) :
    f.step (.record i ⟨key, m, rate, tags⟩) =
      f.step (.record i ⟨key, .raw (kind.rawText value type), rate, tags⟩) := by
  cases hi : f.member? i with
  | none => simp only [step, hi]
  | some r => simp only [step, hi, r.record_asRaw f.hub htype hm key rate tags]

/-- **Raw metrics agree with all others.** What is encoded of a kind and a value is encoded of the raw metric whose
text is the value as the kind writes it, a bar, and the type; and at any moment a client that is asked for the raw
metric does just what it does when it is asked for the measurement itself. Of every text a raw metric can be made: it
stands as it is behind the colon that ends the name, and behind it there are only the rate and, in the suffix dialect,
the tags. -/
theorem raw_agrees :
    (∀ kind value name rate tags format packet, kind ≠ .raw →
      encode name kind value rate tags format = .ok packet → ∃ type, kind.suffix? = some type ∧
        encode name .raw (.text (kind.token value ++ "|" ++ type)) rate tags format = .ok packet) ∧
    (∀ s name rate tags format, encode name .raw (.text s) rate tags format =
      .ok (name ++ format.nameTags tags ++ ":" ++ s ++ rateClause rate ++ format.endTags tags)) ∧
    ∀ (f : Family) i m kind value, m.accepted? = some (kind, value) → kind ≠ .raw →
      ∃ type, kind.suffix? = some type ∧ ∀ key rate tags, f.step (.record i ⟨key, m, rate, tags⟩) =
        f.step (.record i ⟨key, .raw (kind.token value ++ "|" ++ type), rate, tags⟩) := by
  refine ⟨?_, encode_raw, ?_⟩
  · intro kind value name rate tags format packet hkind hencode
    obtain ⟨type, htype⟩ := Reading.suffix?_of_ne_raw hkind
    exact ⟨type, htype, encode_asRaw htype hencode⟩
  · intro f i m kind value hm hkind
    obtain ⟨type, htype⟩ := Reading.suffix?_of_ne_raw hkind
    exact ⟨type, htype, f.step_asRaw i htype hm⟩

/-- A change whose sign is written, at a rate that is written, in a dialect with its tags at the end. -/
theorem raw_agrees_change :
    let half : Binary32 := .ofBits 0x3f000000
    let f := Family.ofClient "app" .discard {}
    encode "load" .gaugeDelta (.int 5) half [⟨"k|", ":"⟩] .suffixOctothorpe = .ok "load:+5|g|@0.5|#k|::" ∧
    encode "load" .raw (.text "+5|g") half [⟨"k|", ":"⟩] .suffixOctothorpe = .ok "load:+5|g|@0.5|#k|::" ∧
    f.step (.record 0 ⟨"load", .gaugeDelta 5, half, []⟩) = f.step (.record 0 ⟨"load", .raw "+5|g", half, []⟩) := by
  intro half f
  have hencode : encode "load" .gaugeDelta (.int 5) half [⟨"k|", ":"⟩] .suffixOctothorpe =
      .ok "load:+5|g|@0.5|#k|::" := congrArg Except.ok (by decide +kernel)
  have htext : Kind.gaugeDelta.token (.int 5) ++ "|" ++ "g" = "+5|g" := by decide +kernel
  obtain ⟨hpackets, -, hcalls⟩ := raw_agrees
  refine ⟨hencode, ?_, ?_⟩
  · obtain ⟨type, htype, hraw⟩ := hpackets _ _ _ _ _ _ _ (by decide) hencode
    obtain rfl : "g" = type := Option.some.inj htype
    rwa [htext] at hraw
  · obtain ⟨type, htype, hraw⟩ := hcalls f 0 (.gaugeDelta 5) .gaugeDelta (.int 5) rfl (by decide)
    obtain rfl : "g" = type := Option.some.inj htype
    rw [hraw, htext]

end MetricWire
